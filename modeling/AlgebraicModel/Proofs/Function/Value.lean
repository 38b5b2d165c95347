import AlgebraicModel.Proofs.Function.Shape
import Mathlib.Algebra.BigOperators.Group.List.Basic
import Mathlib.Tactic.Ring

/-!
# Values of functions

An assignment gives every variable a value, and with it every function that is no array. The
operations on affine and quadratic functions compute with these values: a sum has the sum of the
values, a multiple the multiple, although terms on one variable are merged on the way. The
difference of two functions, in whatever shape it comes out, has the difference of their values
(`value?_minus?`).
-/

set_option autoImplicit false

namespace AlgebraicModel

/-- A value for every variable. -/
abbrev Assignment (α : Type) := VarRef → α

variable {α : Type} [CommRing α] (ρ : Assignment α)

namespace Affine

/-- The sum of the coefficients times the values of their variables. -/
def termsValue (terms : List (VarRef × α)) : α := (terms.map fun t => t.2 * ρ t.1).sum

/-- The value under an assignment. -/
def value (f : Affine α) : α := termsValue ρ f.terms + f.constant

@[simp] theorem termsValue_nil : termsValue ρ [] = 0 := rfl

@[simp] theorem termsValue_cons (t : VarRef × α) (terms : List (VarRef × α)) :
    termsValue ρ (t :: terms) = t.2 * ρ t.1 + termsValue ρ terms := rfl

/-- Merging a term into the one of its variable adds its value all the same. -/
@[simp] theorem termsValue_addTermTo (v : VarRef) (c : α) (terms : List (VarRef × α)) :
    termsValue ρ (addTermTo v c terms) = termsValue ρ terms + c * ρ v := by
  induction terms with
  | nil => simp [addTermTo]
  | cons t terms ih =>
    obtain ⟨w, d⟩ := t
    by_cases h : w = v
    · -- the variable has a term, which takes `c` in
      subst h
      rw [addTermTo, if_pos rfl, termsValue_cons, termsValue_cons]
      ring
    · -- the term stays as it is, and `c` goes on to the others
      rw [addTermTo, if_neg h, termsValue_cons, termsValue_cons, ih]
      ring

theorem termsValue_foldl (terms added : List (VarRef × α)) :
    termsValue ρ (added.foldl (fun ts (v, c) => addTermTo v c ts) terms) =
      termsValue ρ terms + termsValue ρ added := by
  induction added generalizing terms with
  | nil => simp
  | cons t added ih =>
    rw [List.foldl_cons, ih, termsValue_addTermTo, termsValue_cons]
    ring

theorem termsValue_scale (terms : List (VarRef × α)) (k : α) :
    termsValue ρ (terms.map fun (v, c) => (v, c * k)) = termsValue ρ terms * k := by
  induction terms with
  | nil => simp
  | cons t terms ih =>
    rw [List.map_cons, termsValue_cons, termsValue_cons, ih]
    ring

@[simp] theorem value_ofConstant (c : α) : (ofConstant c).value ρ = c := by
  simp [value, ofConstant]

@[simp] theorem value_zero : (zero : Affine α).value ρ = 0 := value_ofConstant ρ 0

@[simp] theorem value_ofVar (v : VarRef) : (ofVar v : Affine α).value ρ = ρ v := by
  simp [value, ofVar, addTerm, zero, ofConstant]

@[simp] theorem value_add (f g : Affine α) : (f.add g).value ρ = f.value ρ + g.value ρ := by
  simp only [value, add, termsValue_foldl]
  ring

@[simp] theorem value_scale (f : Affine α) (k : α) : (f.scale k).value ρ = f.value ρ * k := by
  simp only [value, scale, termsValue_scale]
  ring

@[simp] theorem value_neg (f : Affine α) : f.neg.value ρ = -f.value ρ := by
  rw [neg, value_scale]
  ring

@[simp] theorem value_sub (f g : Affine α) : (f.sub g).value ρ = f.value ρ - g.value ρ := by
  rw [sub, value_add, value_neg]
  ring

/-- What the constant adds is what the function loses without it. -/
theorem value_setConstant_zero (f : Affine α) :
    (f.setConstant 0).value ρ + f.constant = f.value ρ := by
  simp [value, setConstant]

end Affine

namespace Quadratic

/-- The sum of the coefficients times the products of the values of their variables. -/
def termsValue (terms : List ((VarRef × VarRef) × α)) : α :=
  (terms.map fun t => t.2 * (ρ t.1.1 * ρ t.1.2)).sum

/-- The value under an assignment. -/
def value (f : Quadratic α) : α := termsValue ρ f.terms + f.affine.value ρ

@[simp] theorem termsValue_nil : termsValue ρ [] = 0 := rfl

@[simp] theorem termsValue_cons (t : (VarRef × VarRef) × α)
    (terms : List ((VarRef × VarRef) × α)) :
    termsValue ρ (t :: terms) = t.2 * (ρ t.1.1 * ρ t.1.2) + termsValue ρ terms := rfl

/-- A product does not depend on the order in which its pair is stored. -/
theorem value_orderedPair (a b : VarRef) :
    ρ (orderedPair a b).1 * ρ (orderedPair a b).2 = ρ a * ρ b := by
  unfold orderedPair
  split
  · rfl
  · -- stored the other way round
    exact mul_comm _ _

theorem termsValue_addPairTo (p : VarRef × VarRef) (c : α) (terms : List ((VarRef × VarRef) × α)) :
    termsValue ρ (addPairTo p c terms) = termsValue ρ terms + c * (ρ p.1 * ρ p.2) := by
  induction terms with
  | nil => simp [addPairTo]
  | cons t terms ih =>
    obtain ⟨q, d⟩ := t
    by_cases h : q = p
    · -- the product has a term, which takes `c` in
      subst h
      rw [addPairTo, if_pos rfl, termsValue_cons, termsValue_cons]
      ring
    · -- the term stays as it is, and `c` goes on to the others
      rw [addPairTo, if_neg h, termsValue_cons, termsValue_cons, ih]
      ring

theorem termsValue_foldl (terms added : List ((VarRef × VarRef) × α)) :
    termsValue ρ (added.foldl (fun ts ((a, b), c) => addPairTo (orderedPair a b) c ts) terms) =
      termsValue ρ terms + termsValue ρ added := by
  induction added generalizing terms with
  | nil => simp
  | cons t added ih =>
    rw [List.foldl_cons, ih, termsValue_addPairTo, value_orderedPair, termsValue_cons]
    ring

theorem termsValue_scale (terms : List ((VarRef × VarRef) × α)) (k : α) :
    termsValue ρ (terms.map fun (p, c) => (p, c * k)) = termsValue ρ terms * k := by
  induction terms with
  | nil => simp
  | cons t terms ih =>
    rw [List.map_cons, termsValue_cons, termsValue_cons, ih]
    ring

@[simp] theorem value_ofAffine (f : Affine α) : (ofAffine f).value ρ = f.value ρ := by
  simp [value, ofAffine]

@[simp] theorem value_add (f g : Quadratic α) : (f.add g).value ρ = f.value ρ + g.value ρ := by
  simp only [value, add, termsValue_foldl, Affine.value_add]
  ring

@[simp] theorem value_scale (f : Quadratic α) (k : α) :
    (f.scale k).value ρ = f.value ρ * k := by
  simp only [value, scale, termsValue_scale, Affine.value_scale]
  ring

@[simp] theorem value_sub (f g : Quadratic α) : (f.sub g).value ρ = f.value ρ - g.value ρ := by
  rw [sub, value_add, value_scale]
  ring

/-- What the constant adds is what the function loses without it. -/
theorem value_setConstant_zero (f : Quadratic α) :
    ({ f with affine := f.affine.setConstant 0 } : Quadratic α).value ρ + f.constant =
      f.value ρ := by
  rw [value, value, constant, add_assoc, Affine.value_setConstant_zero]

end Quadratic

namespace Function

/-- The value under an assignment, which an array does not have. -/
def value? : Function α → Option α
  | constant c => some c
  | var v => some (ρ v)
  | affine f => some (f.value ρ)
  | quadratic f => some (f.value ρ)
  | array _ => none

theorem exists_value_iff {f : Function α} :
    (∃ a, f.value? ρ = some a) ↔ f.isArray = false := by
  cases f <;> simp [value?, isArray]

theorem exists_value {f : Function α} (hf : f.isArray = false) : ∃ a, f.value? ρ = some a :=
  (exists_value_iff ρ).2 hf

theorem isArray_of_value? {f : Function α} {a : α} (h : f.value? ρ = some a) :
    f.isArray = false :=
  (exists_value_iff ρ).1 ⟨a, h⟩

theorem value?_of_toAffine? {f : Function α} {g : Affine α} (h : f.toAffine? = some g) :
    f.value? ρ = some (g.value ρ) := by
  cases f with
  | constant c =>
    cases h
    rw [value?, Affine.value_ofConstant]
  | var v =>
    cases h
    rw [value?, Affine.value_ofVar]
  | affine f =>
    cases h
    rfl
  | quadratic f => cases h
  | array fs => cases h

theorem value?_of_toQuadratic? {f : Function α} {g : Quadratic α} (h : f.toQuadratic? = some g) :
    f.value? ρ = some (g.value ρ) := by
  cases f with
  | quadratic f =>
    cases h
    rfl
  | _ =>
    simp only [toQuadratic?, Option.map_eq_some_iff] at h
    obtain ⟨g', hg', rfl⟩ := h
    rw [value?_of_toAffine? ρ hg', Quadratic.value_ofAffine]

/-- A difference has the difference of the values. -/
theorem value?_minus? {l r f : Function α} (h : l.minus? r = some f) :
    ∃ a b, l.value? ρ = some a ∧ r.value? ρ = some b ∧ f.value? ρ = some (a - b) := by
  rcases minus?_cases h with ⟨a, b, rfl, rfl, rfl⟩ | ⟨p, q, hp, hq, rfl⟩ | ⟨p, q, hp, hq, rfl⟩
  · -- two constants
    exact ⟨a, b, rfl, rfl, rfl⟩
  · -- both sides widened to quadratic functions
    refine ⟨_, _, value?_of_toQuadratic? ρ hp, value?_of_toQuadratic? ρ hq, ?_⟩
    rw [value?, Quadratic.value_sub]
  · -- both sides widened to affine functions
    refine ⟨_, _, value?_of_toAffine? ρ hp, value?_of_toAffine? ρ hq, ?_⟩
    rw [value?, Affine.value_sub]

end Function

end AlgebraicModel
