import AlgebraicModel.Binary64.Order
import Mathlib.Order.Monotone.Basic

/-!
# The order of binary64 numbers is the order of their values

`Binary64.compare` works on the bits: it compares magnitudes, with their signs. The units of a
finite number grow strictly with its magnitude (`unitsOfMagnitude_strictMono`), so the order on the
bits is the order on exact values (`compare_eq_compare_units`).
-/

set_option autoImplicit false

namespace AlgebraicModel.Binary64

/-! ## Magnitudes and units -/

/-- The next magnitude stands for more units: either the fraction grows, or the exponent does and
the fraction starts again from zero. -/
theorem unitsOfMagnitude_lt_succ (m : Nat) : unitsOfMagnitude m < unitsOfMagnitude (m + 1) := by
  unfold unitsOfMagnitude exponentField fractionField
  by_cases hcarry : m % 2 ^ 52 + 1 < 2 ^ 52
  · -- the fraction grows and the exponent stays
    have hfield : (m + 1) / 2 ^ 52 = m / 2 ^ 52 := by omega
    have hfraction : (m + 1) % 2 ^ 52 = m % 2 ^ 52 + 1 := by omega
    rw [hfield, hfraction]
    by_cases hzero : m / 2 ^ 52 = 0
    · rw [if_pos hzero, if_pos hzero]
      exact Nat.lt_succ_self _
    · rw [if_neg hzero, if_neg hzero]
      exact Nat.mul_lt_mul_of_pos_right (by omega) (Nat.two_pow_pos _)
  · -- the fraction is full and carries into the exponent
    have hfield : (m + 1) / 2 ^ 52 = m / 2 ^ 52 + 1 := by omega
    have hfraction : (m + 1) % 2 ^ 52 = 0 := by omega
    rw [hfield, hfraction, if_neg (Nat.succ_ne_zero _)]
    by_cases hzero : m / 2 ^ 52 = 0
    · rw [if_pos hzero, hzero]
      omega
    · -- a full fraction stays below twice the leading bit, which is the next power of two
      obtain ⟨e, he⟩ : ∃ e, m / 2 ^ 52 = e + 1 := ⟨m / 2 ^ 52 - 1, by omega⟩
      rw [if_neg hzero, he]
      calc (2 ^ 52 + m % 2 ^ 52) * 2 ^ e
          < (2 ^ 52 * 2) * 2 ^ e := Nat.mul_lt_mul_of_pos_right (by omega) (Nat.two_pow_pos _)
        _ = (2 ^ 52 + 0) * 2 ^ (e + 1) := by rw [Nat.pow_succ, Nat.mul_assoc, Nat.mul_comm 2]; rfl

theorem unitsOfMagnitude_strictMono : StrictMono unitsOfMagnitude :=
  strictMono_nat_of_lt_succ unitsOfMagnitude_lt_succ

@[simp] theorem unitsOfMagnitude_zero : unitsOfMagnitude 0 = 0 := by
  decide

theorem unitsOfMagnitude_lt_iff {m n : Nat} : unitsOfMagnitude m < unitsOfMagnitude n ↔ m < n :=
  unitsOfMagnitude_strictMono.lt_iff_lt

/-! ## Comparisons -/

/-- A comparison of integers is decided by what is less and what is equal. -/
theorem compare_congr {a b c d : Int} (hlt : a < b ↔ c < d) (heq : a = b ↔ c = d) :
    Ord.compare a b = Ord.compare c d := by
  simp only [Ord.compare, compareOfLessAndEq, hlt, heq]

theorem unitsPerOne_pos : 0 < (unitsPerOne : Int) := by
  refine Int.natCast_pos.mpr ?_
  simp only [unitsPerOne, Nat.two_pow_pos]

theorem compare_mul_unitsPerOne (m n : Int) :
    Ord.compare (m * (unitsPerOne : Int)) (n * (unitsPerOne : Int)) = Ord.compare m n := by
  apply compare_congr
  · exact Int.mul_lt_mul_right unitsPerOne_pos
  · exact Int.mul_eq_mul_right_iff unitsPerOne_pos.ne'

/-- Signs and magnitudes are ordered as signs and units are. -/
theorem compare_valueKey (x y : Float) :
    Ord.compare (valueKey x) (valueKey y) = Ord.compare (units x) (units y) := by
  -- the two zeros are equal, so a sign only counts beside a positive magnitude
  have hpos (z : Float) : 0 < unitsOfMagnitude (magnitude z) ↔ 0 < magnitude z := by
    simpa using unitsOfMagnitude_lt_iff (m := 0) (n := magnitude z)
  have hlt : unitsOfMagnitude (magnitude x) < unitsOfMagnitude (magnitude y) ↔
    magnitude x < magnitude y := unitsOfMagnitude_lt_iff
  have hgt : unitsOfMagnitude (magnitude y) < unitsOfMagnitude (magnitude x) ↔
    magnitude y < magnitude x := unitsOfMagnitude_lt_iff
  have hx := hpos x
  have hy := hpos y
  apply compare_congr
  · unfold valueKey units
    split <;> split <;> omega
  · unfold valueKey units
    split <;> split <;> omega

theorem compare_eq_compare_valueKey {x y : Float} (hx : isNaN x = false) (hy : isNaN y = false) :
    compare x y = Ord.compare (valueKey x) (valueKey y) := by
  simp [compare, hx, hy]

theorem compare_eq_compare_units {x y : Float} (hx : isNaN x = false) (hy : isNaN y = false) :
    compare x y = Ord.compare (units x) (units y) := by
  rw [compare_eq_compare_valueKey hx hy]
  exact compare_valueKey x y

/-- An infinite number is beyond every finite one on its side. -/
theorem compare_of_isInfinite {x y : Float} (hx : isInfinite x = true) (hy : isFinite y = true) :
    Ord.compare (valueKey x) (valueKey y) = if isNegative x then .lt else .gt := by
  have hx : magnitude x = infinityMagnitude := by simpa [isInfinite] using hx
  have hy : magnitude y < infinityMagnitude := by simpa [isFinite] using hy
  cases hneg : isNegative x with
  | false =>
    apply Int.compare_eq_gt.mpr
    simp only [valueKey, hneg, Bool.false_eq_true, if_false]
    split <;> omega
  | true =>
    apply Int.compare_eq_lt.mpr
    simp only [valueKey, hneg, if_true]
    split <;> omega

/-! ## Kinds of numbers -/

theorem isFinite_eq (x : Float) : isFinite x = (!isNaN x && !isInfinite x) := by
  have h : magnitude x < infinityMagnitude ↔
      ¬ infinityMagnitude < magnitude x ∧ ¬ magnitude x = infinityMagnitude := by
    omega
  rw [Bool.eq_iff_iff]
  simpa [isFinite, isNaN, isInfinite] using h

theorem isNaN_of_isInfinite {x : Float} (h : isInfinite x = true) : isNaN x = false := by
  have h : magnitude x = infinityMagnitude := by simpa [isInfinite] using h
  simp [isNaN, h]

theorem isNaN_of_isFinite {x : Float} (h : isFinite x = true) : isNaN x = false := by
  rw [isFinite_eq, Bool.and_eq_true] at h
  simpa using h.1

/-- A number is no number at all, infinite or finite. -/
theorem kind_cases (x : Float) :
    isNaN x = true ∨ (isNaN x = false ∧ isInfinite x = true) ∨
      (isNaN x = false ∧ isInfinite x = false ∧ isFinite x = true) := by
  have h := isFinite_eq x
  cases hnan : isNaN x with
  | true => exact .inl rfl
  | false =>
    cases hinf : isInfinite x with
    | true => exact .inr (.inl ⟨rfl, rfl⟩)
    | false =>
      rw [hnan, hinf] at h
      exact .inr (.inr ⟨rfl, rfl, h⟩)

end AlgebraicModel.Binary64
