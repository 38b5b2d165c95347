/-!
# References into a model

A variable or a constraint is referred to by its model and its position there. The reference
remembers the model, so that a model can refuse what belongs to another.
-/

set_option autoImplicit false

namespace AlgebraicModel

/-- A variable, by its position in its model. -/
structure VarRef where
  /-- The number of the model, greater for a model created later. -/
  model : Nat
  index : Nat
deriving DecidableEq, Repr

/-- A constraint, by its position in its model. -/
structure ConstraintRef where
  /-- The number of the model. -/
  model : Nat
  index : Nat
deriving DecidableEq, Repr

namespace VarRef

/-- Variables are ordered by model, and in a model by position. -/
protected def le (a b : VarRef) : Prop :=
  a.model < b.model ∨ a.model = b.model ∧ a.index ≤ b.index

instance : LE VarRef := ⟨VarRef.le⟩

instance (a b : VarRef) : Decidable (a ≤ b) :=
  inferInstanceAs (Decidable (a.model < b.model ∨ a.model = b.model ∧ a.index ≤ b.index))

theorem le_iff {a b : VarRef} :
    a ≤ b ↔ a.model < b.model ∨ a.model = b.model ∧ a.index ≤ b.index := Iff.rfl

theorem le_total (a b : VarRef) : a ≤ b ∨ b ≤ a := by
  simp only [le_iff]; omega

end VarRef

end AlgebraicModel
