import AlgebraicModel.Declaration.Basic
import AlgebraicModel.Expr.Eval

/-!
# The keys of a collection

There are two ways to the keys of a declaration. Where no index set depends on another, the sets are
evaluated once each (`evalAxes`), and the keys are their tuples (`tuples`). In general the sets are
nested (`enumerate`): each is evaluated with the enclosing indices bound, and a tuple is kept when
the condition holds of it. In both the last index varies fastest.
-/

set_option autoImplicit false

namespace AlgebraicModel

/-- The tuples with one element of each set, the last varying fastest. -/
def tuples {α : Type} : List (List α) → List (List α)
  | [] => [[]]
  | s :: ss => s.flatMap fun a => (tuples ss).map (a :: ·)

@[simp] theorem tuples_nil {α : Type} : tuples ([] : List (List α)) = [[]] := rfl

@[simp] theorem tuples_cons {α : Type} (s : List α) (ss : List (List α)) :
    tuples (s :: ss) = s.flatMap fun a => (tuples ss).map (a :: ·) := rfl

theorem length_of_mem_tuples {α : Type} {ss : List (List α)} {k : List α} (h : k ∈ tuples ss) :
    k.length = ss.length := by
  induction ss generalizing k with
  | nil => simp at h; simp [h]
  | cons s ss ih =>
    simp only [tuples_cons, List.mem_flatMap, List.mem_map] at h
    obtain ⟨a, _, k', hk', rfl⟩ := h
    simp [ih hk']

variable [Closeness]

/-- Whether the bindings meet a condition, if there is one. -/
def Bindings.meets (b : Bindings) : Option Expr → Except EvalError Bool
  | none => .ok true
  | some condition => b.evalBool condition

/-- The keys of nested index sets that meet the condition. -/
def enumerate (filter : Option Expr) : List IndexSet → Bindings → Except EvalError (List Key)
  | [], b => do if ← b.meets filter then return [b.key] else return []
  | i :: is, b => do
    let elements ← b.evalSet i.set
    let parts ← elements.mapM fun v => enumerate filter is (b.push i.name v)
    return parts.flatten

namespace Declaration

/-- The index sets, each evaluated on its own. -/
def evalAxes (d : Declaration) (p : Params) : Except EvalError (List (List IndexValue)) :=
  d.indexSets.mapM (Bindings.ofParams p).evalSet

/-- The keys of the declaration, each set being evaluated inside the ones before it. -/
def enumerateKeys (d : Declaration) (p : Params) : Except EvalError (List Key) :=
  enumerate d.filter d.indices (.ofParams p)

/-- The bindings under which the element of a key is built. -/
def bindingsAt (d : Declaration) (p : Params) (k : Key) : Bindings :=
  (Bindings.ofParams p).pushAll d.indexNames k

end Declaration

end AlgebraicModel
