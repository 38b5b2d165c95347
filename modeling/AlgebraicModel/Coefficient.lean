import AlgebraicModel.Decimal.Shortest

/-!
# Coefficients

Functions, sets and bounds are written over a type of coefficients. Their arithmetic needs zero,
one, negation, sums, differences and products, which the classes of core supply; the class
`Coefficient` adds the text of a coefficient and the test for what is no number. Models are built
over `Float`.
-/

set_option autoImplicit false

namespace AlgebraicModel

/-- What coefficients have beside their arithmetic. -/
class Coefficient (α : Type) where
  /-- The coefficient as it is shown. -/
  text : α → String
  /-- Whether it is no number. -/
  isNaN : α → Bool

instance : Coefficient Float := ⟨Binary64.text, Binary64.isNaN⟩

instance instZeroFloat : Zero Float := ⟨0.0⟩

instance instOneFloat : One Float := ⟨1.0⟩

end AlgebraicModel
