import AlgebraicModel.Diagnostic

/-!
# Building elements

The elements of a collection are built by a description that the caller supplies. A description may
fail, and it may keep a state of its own, which outlives a failure. `BuildM` is the monad of such
descriptions; `BuildM.labelled` puts a label on what fails inside.
-/

set_option autoImplicit false

namespace AlgebraicModel

/-- A computation that may fail and that keeps a state, the state surviving a failure. -/
abbrev BuildM (σ : Type) := ExceptT Error (StateM σ)

namespace BuildM

variable {σ τ α : Type}

/-- A computation without a state of its own. -/
def ofExcept (x : Except Error α) : BuildM σ α := ExceptT.mk (pure x)

/-- A computation whose errors carry the label. -/
def labelled (l : Label) (x : BuildM σ α) : BuildM σ α :=
  ExceptT.mk do
    match ← x.run with
    | .ok a => return .ok a
    | .error e => return .error (l.attach e)

/-- A computation on the second part of a state, the first part being left alone. -/
def onSecond (x : BuildM τ α) : BuildM (σ × τ) α :=
  ExceptT.mk fun (s, t) =>
    let (r, t') := x.run t
    (r, (s, t'))

/-- A computation on the first part of a state, the second part being left alone. -/
def onFirst (x : BuildM σ α) : BuildM (σ × τ) α :=
  ExceptT.mk fun (s, t) =>
    let (r, s') := x.run s
    (r, (s', t))

end BuildM

end AlgebraicModel
