import AlgebraicModel.Proofs.Function.Shape
import AlgebraicModel.Relation.Canonical

/-!
# Canonicalization, read case by case

What the ends of a range are, what relocation does to an array and to a scalar function, and which
differences the sides of a comparison have. A difference of arrays, or of an array and a scalar, is
a traversal of the elements. Relocation leaves nothing to relocate (`Function.relocate_relocate`),
as long as a coefficient less zero is that coefficient; nothing else is asked of the arithmetic
here.
-/

set_option autoImplicit false

namespace AlgebraicModel

variable {α : Type} {broadcast : Bool}

/-! ## Ends of a range -/

/-- The bound as it is written in a relation. -/
def Bound.toFunction : Bound α → Function α
  | .scalar c => .constant c
  | .array cs => .array (cs.map .constant)

namespace Function

theorem map_constant_of_mapM {fs : List (Function α)} {bs : List α}
    (h : fs.mapM asConstant? = some bs) : fs = bs.map constant := by
  induction fs generalizing bs with
  | nil =>
    cases h
    rfl
  | cons f fs ih =>
    rw [List.mapM_cons] at h
    obtain ⟨b, hb, h⟩ := Option.bind_eq_some_iff.1 h
    obtain ⟨bs', hbs, h⟩ := Option.bind_eq_some_iff.1 h
    cases h
    cases f with
    | constant c =>
      cases hb
      rw [List.map_cons, ← ih hbs]
    | _ => cases hb

/-- An end of a range is a constant, or under a broadcast an array of constants. -/
theorem toBound_cases {which : RangeEnd} {g : Function α} {b : Bound α}
    (h : g.toBound which broadcast = .ok b) :
    (∃ c, g = constant c ∧ b = .scalar c) ∨
      ∃ cs, broadcast = true ∧ g = array (cs.map constant) ∧ b = .array cs := by
  cases g with
  | constant c =>
    cases h
    exact Or.inl ⟨c, rfl, rfl⟩
  | array fs =>
    rw [toBound] at h
    cases broadcast with
    | false => cases h
    | true =>
      rw [if_pos rfl] at h
      split at h
      · rename_i cs hcs
        cases h
        rw [map_constant_of_mapM hcs]
        exact Or.inr ⟨cs, rfl, rfl, rfl⟩
      · cases h
  | _ => cases h

theorem mapM_asConstant? (cs : List α) : (cs.map constant).mapM asConstant? = some cs := by
  induction cs with
  | nil => rfl
  | cons c cs ih =>
    rw [List.map_cons, List.mapM_cons, ih]
    rfl

theorem toBound_toFunction (which : RangeEnd) (b : Bound α) :
    b.toFunction.toBound which true = .ok b := by
  cases b with
  | scalar c => rfl
  | array cs =>
    rw [Bound.toFunction, toBound, mapM_asConstant?]
    rfl

end Function

/-! ## Relocation -/

section Relocation

theorem ScalarSet.isIntegrality_shift [Sub α] (s : ScalarSet α) (c : α) :
    (s.shift c).isIntegrality = s.isIntegrality := by
  cases s <;> rfl

variable [Zero α]

namespace Function

theorem additive_withoutAdditive (f : Function α) : f.withoutAdditive.additive = 0 := by
  cases f <;> rfl

theorem withoutAdditive_withoutAdditive (f : Function α) :
    f.withoutAdditive.withoutAdditive = f.withoutAdditive := by
  cases f <;> rfl

theorem isArray_withoutAdditive (f : Function α) : f.withoutAdditive.isArray = f.isArray := by
  cases f <;> rfl

end Function

variable [Sub α]

/-- Subtracting zero changes no coefficient. -/
def SubZero (α : Type) [Zero α] [Sub α] : Prop := ∀ x : α, x - 0 = x

theorem ScalarSet.shift_zero (s : ScalarSet α) (hzero : SubZero α) : s.shift 0 = s := by
  cases s <;> simp [shift, hzero _]

theorem Bound.shift_zero (hzero : SubZero α) (b : Bound α) : b.shift 0 = b := by
  cases b <;> simp [shift, hzero _]

namespace Function

theorem relocate_array (fs : List (Function α)) (s : ScalarSet α) :
    (array fs).relocate s = (array fs, s) := rfl

theorem relocate_scalar {f : Function α} {s : ScalarSet α} (hf : f.isArray = false)
    (hs : s.isIntegrality = false) :
    f.relocate s = (f.withoutAdditive, s.shift f.additive) := by
  rw [relocate, hf, hs]
  rfl

theorem relocate_integrality {f : Function α} {s : ScalarSet α} (hs : s.isIntegrality = true) :
    f.relocate s = (f, s) := by
  rw [relocate, hs, Bool.or_true]
  rfl

theorem relocate_var (hzero : SubZero α) (v : VarRef) (s : ScalarSet α) :
    (var v).relocate s = (var v, s) := by
  cases hs : s.isIntegrality with
  | true => rw [relocate_integrality hs]
  | false =>
    rw [relocate_scalar rfl hs]
    exact congrArg (Prod.mk (var v)) (s.shift_zero hzero)

/-- Relocation leaves nothing to relocate. -/
theorem relocate_relocate (hzero : SubZero α) (f : Function α) (s : ScalarSet α) :
    (f.relocate s).1.relocate (f.relocate s).2 = f.relocate s := by
  cases hf : f.isArray with
  | true =>
    cases f with
    | array fs => rfl
    | _ => cases hf
  | false =>
    cases hs : s.isIntegrality with
    | true => rw [relocate_integrality hs, relocate_integrality hs]
    | false =>
      rw [relocate_scalar hf hs]
      have hf' : f.withoutAdditive.isArray = false := (isArray_withoutAdditive f).trans hf
      have hs' : (s.shift f.additive).isIntegrality = false :=
        (s.isIntegrality_shift f.additive).trans hs
      rw [relocate_scalar hf' hs', withoutAdditive_withoutAdditive, additive_withoutAdditive,
        ScalarSet.shift_zero _ hzero]

end Function

end Relocation

/-! ## Differences -/

namespace Function

variable [Zero α] [One α] [Neg α] [Add α] [Sub α] [Mul α]

theorem differences_eq_mapM (ls rs : List (Function α)) :
    differences broadcast ls rs = (ls.zip rs).mapM fun p => difference broadcast p.1 p.2 := by
  induction ls generalizing rs with
  | nil => simp [differences, pure, Except.pure]
  | cons l ls ih =>
    cases rs with
    | nil => simp [differences, pure, Except.pure]
    | cons r rs => rw [differences, List.zip_cons_cons, List.mapM_cons, ih]

theorem eachMinus_eq_mapM (ls : List (Function α)) (r : Function α) :
    eachMinus broadcast ls r = ls.mapM fun l => difference broadcast l r := by
  induction ls with
  | nil => rw [eachMinus, List.mapM_nil]; rfl
  | cons l ls ih => rw [eachMinus, List.mapM_cons, ih]

theorem minusAll_eq_mapM (l : Function α) (rs : List (Function α)) :
    minusAll l rs = rs.mapM fun r => minusEach l r := by
  induction rs with
  | nil => rw [minusAll, List.mapM_nil]; rfl
  | cons r rs ih => rw [minusAll, List.mapM_cons, ih]

theorem minusEach_scalar (l : Function α) {r : Function α} (hr : r.isArray = false) :
    minusEach l r = scalarMinus l r := by
  cases r with
  | array rs => cases hr
  | _ => rw [minusEach]; exact fun _ h => by cases h

theorem difference_scalars {l r : Function α} (hl : l.isArray = false) (hr : r.isArray = false) :
    difference broadcast l r = scalarMinus l r := by
  cases l with
  | array ls => cases hl
  | _ =>
    cases r with
    | array rs => cases hr
    | _ => simp [difference]

theorem difference_arrayWithScalar (ls : List (Function α)) {r : Function α}
    (hr : r.isArray = false) :
    difference broadcast (array ls) r =
      if broadcast then array <$> eachMinus broadcast ls r
      else .error (.arrayWithScalar ls.length) := by
  cases r with
  | array rs => cases hr
  | _ => simp [difference]

theorem difference_scalarWithArray {l : Function α} (rs : List (Function α))
    (hl : l.isArray = false) :
    difference broadcast l (array rs) =
      if broadcast then minusEach l (array rs) else .error (.arrayWithScalar rs.length) := by
  cases l with
  | array ls => cases hl
  | _ => simp [difference]

end Function

/-- The canonical form of a comparison of two scalar functions: their difference in the set around
zero, relocated. -/
theorem Relation.canonicalForm_scalars [Zero α] [One α] [Neg α] [Add α] [Sub α] [Mul α]
    {lhs rhs f : Function α} {op : Comparison} {s : ScalarSet α} (hf : lhs.minus? rhs = some f)
    (hs : op.zeroSet? = some s) (broadcast : Bool) :
    (oneSided lhs op rhs broadcast).canonicalForm =
      .ok (.membership (f.relocate s).1 (.scalar (f.relocate s).2) broadcast) := by
  obtain ⟨hl, hr⟩ := Function.isArray_of_minus? hf
  rw [canonicalForm, hs]
  simp only [Function.difference_scalars hl hr, Function.scalarMinus, hf]
  rfl

end AlgebraicModel
