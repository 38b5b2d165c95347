import AlgebraicModel.Function.Basic

/-!
# Shapes of functions

A function is an array of functions or none, and functions that are no arrays always have a
difference (`Function.exists_minus?`), in one of three shapes (`Function.minus?_cases`). Nothing is
asked of the arithmetic of coefficients here.
-/

set_option autoImplicit false

namespace AlgebraicModel.Function

variable {α : Type}

/-- The two sorts of functions: those that are no arrays, and arrays of functions. -/
theorem scalar_or_array_induction {motive : Function α → Prop}
    (scalar : ∀ f, f.isArray = false → motive f)
    (array : ∀ fs, (∀ f ∈ fs, motive f) → motive (.array fs)) : ∀ f, motive f
  | .constant _ => scalar _ rfl
  | .var _ => scalar _ rfl
  | .affine _ => scalar _ rfl
  | .quadratic _ => scalar _ rfl
  | .array fs => array fs fun f _ => scalar_or_array_induction scalar array f

variable [Zero α] [One α] [Neg α] [Add α] [Sub α] [Mul α]

/-- The shapes in which a difference comes out. -/
theorem minus?_cases {l r f : Function α} (h : l.minus? r = some f) :
    (∃ a b, l = constant a ∧ r = constant b ∧ f = constant (a - b)) ∨
      (∃ p q, l.toQuadratic? = some p ∧ r.toQuadratic? = some q ∧ f = quadratic (p.sub q)) ∨
        ∃ p q, l.toAffine? = some p ∧ r.toAffine? = some q ∧ f = affine (p.sub q) := by
  cases l with
  | array ls => simp [minus?] at h
  | _ =>
    cases r with
    | array rs => simp [minus?] at h
    | _ => simp_all [minus?, toQuadratic?, toAffine?]

theorem isArray_of_minus? {l r f : Function α} (h : l.minus? r = some f) :
    l.isArray = false ∧ r.isArray = false := by
  cases l <;> cases r <;> simp_all [minus?, isArray]

/-- Two functions that are no arrays have a difference. -/
theorem exists_minus? {l r : Function α} (hl : l.isArray = false) (hr : r.isArray = false) :
    ∃ f, l.minus? r = some f := by
  cases l <;> cases r <;> simp_all [minus?, isArray, toQuadratic?, toAffine?]

end AlgebraicModel.Function
