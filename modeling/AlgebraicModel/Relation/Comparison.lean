import AlgebraicModel.ConstraintSet
import AlgebraicModel.Diagnostic
import AlgebraicModel.Text.Blank

/-!
# Comparisons

The operators that stand between the sides of a relation. Only `<=`, `>=` and `==` describe a set
that a constraint can hold its function in.
-/

set_option autoImplicit false

namespace AlgebraicModel

/-- A comparison operator. -/
inductive Comparison where
  | le | ge | eq | lt | gt | ne
deriving DecidableEq, Repr

/-- A text that is no comparison operator. -/
structure UnknownComparison where
  text : String

instance : Cause UnknownComparison :=
  ⟨fun _ => .specification, fun _ => .unrecognizedRelation,
   fun c => "unrecognized relation `" ++ c.text ++ "`"⟩

namespace Comparison

/-- The operator that a text names, blanks around it aside. -/
def ofText (s : String) : Except UnknownComparison Comparison :=
  let t := Text.trim s
  if t = "<=" ∨ t = "≤" then .ok le
  else if t = ">=" ∨ t = "≥" then .ok ge
  else if t = "==" ∨ t = "=" then .ok eq
  else if t = "<" then .ok lt
  else if t = ">" then .ok gt
  else if t = "!=" ∨ t = "≠" then .ok ne
  else .error ⟨t⟩

/-- The name of the operator. -/
def name : Comparison → String
  | le => "Le"
  | ge => "Ge"
  | eq => "Eq"
  | lt => "Lt"
  | gt => "Gt"
  | ne => "Ne"

/-- The operator as it is shown. -/
def symbol : Comparison → String
  | le => "<="
  | ge => ">="
  | eq => "=="
  | lt => "<"
  | gt => ">"
  | ne => "!="

/-- The operator with its sides exchanged. -/
def flip : Comparison → Comparison
  | le => ge
  | ge => le
  | lt => gt
  | gt => lt
  | eq => eq
  | ne => ne

/-- The set of the numbers that compare with zero in this way, for the operators that a constraint
accepts. -/
def zeroSet? {α : Type} [Zero α] : Comparison → Option (ScalarSet α)
  | le => some (.lessThan 0)
  | ge => some (.greaterThan 0)
  | eq => some (.equalTo 0)
  | lt | gt | ne => none

@[simp] theorem flip_flip (c : Comparison) : c.flip.flip = c := by
  cases c <;> rfl

end Comparison

end AlgebraicModel
