import AlgebraicModel.Expr.Basic
import Std.Data.TreeSet

/-!
# Names in index expressions

`Expr.names` collects the names that an expression refers to and `Expr.mentions` asks for one of
them. The name of a built-in function is no reference. `firstDependency?` finds the first index set
that refers to an index declared before it, and the first such index.
-/

set_option autoImplicit false

namespace AlgebraicModel

/-- A set of names, in ascending order. -/
abbrev NameSet := Std.TreeSet Name

namespace Expr

mutual

/-- Adds the names that the expression refers to. -/
def addNames : Expr → NameSet → NameSet
  | const _, s => s
  | var n, s => s.insert n
  | range lo hi, s => hi.addNames (lo.addNames s)
  | collection elements, s => addAllNames elements s
  | app _ args, s => addAllNames args s
  | unary _ e, s => e.addNames s
  | binary _ l r, s => r.addNames (l.addNames s)
  | ite c t f, s => f.addNames (t.addNames (c.addNames s))

/-- Adds the names that a list of expressions refers to. -/
def addAllNames : List Expr → NameSet → NameSet
  | [], s => s
  | e :: es, s => addAllNames es (e.addNames s)

end

/-- The names that the expression refers to. -/
def names (e : Expr) : NameSet := e.addNames ∅

mutual

/-- Whether the expression refers to the name. -/
def mentions (n : Name) : Expr → Bool
  | const _ => false
  | var m => m == n
  | range lo hi => lo.mentions n || hi.mentions n
  | collection elements => anyMentions n elements
  | app _ args => anyMentions n args
  | unary _ e => e.mentions n
  | binary _ l r => l.mentions n || r.mentions n
  | ite c t f => c.mentions n || t.mentions n || f.mentions n

/-- Whether one of the expressions refers to the name. -/
def anyMentions (n : Name) : List Expr → Bool
  | [] => false
  | e :: es => e.mentions n || anyMentions n es

end

end Expr

/-- The position of the first set that refers to an index declared before it, and the position of
the first such index. -/
def firstDependency? (vars : List Name) (sets : List Expr) : Option (Nat × Nat) :=
  (sets.zipIdx.drop 1).findSome? fun (set, i) =>
    ((vars.take i).findIdx? set.names.contains).map fun j => (i, j)

/-- Whether some set refers to an index declared before it. -/
def hasDependentSets (vars : List Name) (sets : List Expr) : Bool :=
  (firstDependency? vars sets).isSome

example : firstDependency? [⟨"i"⟩, ⟨"j"⟩] [.oneTo (.var ⟨"N"⟩), .range (.var ⟨"i"⟩) (.var ⟨"N"⟩)] =
    some (1, 0) := by decide +kernel

end AlgebraicModel
