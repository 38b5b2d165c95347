import AlgebraicModel.Binary64.Order
import AlgebraicModel.Proofs.Binary64.Integer

/-!
# Integers rounded to binary64

The number nearest to an integer ascends with the integer (`units_ofInt_mono`). It is the integer
itself up to `2 ^ 53` (`units_ofInt_of_le`), the first one with a neighbour that is rounded away.
Numbers made from integers are never the negative zero, so the comparison along the line of all
numbers and the comparison by value say the same of them: two integers are compared as they are,
unless they have one nearest number (`totalCompare_ofInt`).
-/

set_option autoImplicit false

namespace AlgebraicModel.Binary64

-- Powers of numbers are those of core, whichever other instances are in scope.
attribute [local instance (high)] instPowNat

/-! ## The nearest integer -/

section

variable {m n d : Nat}

/-- The quotient is rounded down below a half and up above it, and a half to the even side. -/
theorem roundHalfEven_cases (n d : Nat) :
    (2 * (n % d) < d ∧ roundHalfEven n d = n / d) ∨
      (2 * (n % d) = d ∧ roundHalfEven n d = n / d + n / d % 2) ∨
      (d < 2 * (n % d) ∧ roundHalfEven n d = n / d + 1) := by
  rw [roundHalfEven]
  rcases Nat.lt_trichotomy (2 * (n % d)) d with h | h | h
  · exact .inl ⟨h, by rw [Nat.compare_eq_lt.mpr h]⟩
  · exact .inr (.inl ⟨h, by rw [Nat.compare_eq_eq.mpr h]⟩)
  · exact .inr (.inr ⟨h, by rw [Nat.compare_eq_gt.mpr h]⟩)

theorem div_le_roundHalfEven (n d : Nat) : n / d ≤ roundHalfEven n d := by
  have h := roundHalfEven_cases n d
  omega

theorem roundHalfEven_le_succ (n d : Nat) : roundHalfEven n d ≤ n / d + 1 := by
  have h := roundHalfEven_cases n d
  omega

theorem roundHalfEven_mono (h : m ≤ n) : roundHalfEven m d ≤ roundHalfEven n d := by
  rcases Nat.lt_or_eq_of_le (Nat.div_le_div_right h : m / d ≤ n / d) with hlt | heq
  · exact (roundHalfEven_le_succ m d).trans (Nat.le_trans hlt (div_le_roundHalfEven n d))
  · -- one quotient, so that the remainders decide
    have hmod : m % d ≤ n % d := by
      have hm := Nat.div_add_mod m d
      have hn := Nat.div_add_mod n d
      rw [heq] at hm
      omega
    have hm := roundHalfEven_cases m d
    have hn := roundHalfEven_cases n d
    omega

theorem roundHalfEven_one (n : Nat) : roundHalfEven n 1 = n := by
  rw [roundHalfEven, Nat.mod_one, Nat.div_one]
  rfl

end

/-! ## The nearest magnitude -/

/-- The fifty-three leading binary digits of an integer, the rest being rounded. -/
def leading (n : Nat) : Nat := roundHalfEven (n * 2 ^ (52 - n.log2)) (2 ^ (n.log2 - 52))

section

variable {m n : Nat}

theorem floorLog2_one (hn : n ≠ 0) : floorLog2 n 1 = n.log2 := by
  have hup : (-(n.log2 : Int)).toNat = 0 := by omega
  have hlog : Nat.log2 1 = 0 := by decide
  simp only [floorLog2, hlog, Int.natCast_zero, Int.sub_zero, scaleDown, hup, Int.toNat_natCast,
    Nat.pow_zero, Nat.mul_one, Nat.one_mul, if_pos (Nat.log2_self_le hn)]

theorem nearestMagnitude_one (hn : n ≠ 0) :
    nearestMagnitude n 1 = min ((n.log2 + 1022) * 2 ^ 52 + leading n) infinityMagnitude := by
  have hscale : max ((n.log2 : Int) - 52) (-1074) = n.log2 - 52 := by omega
  have hplaces : ((n.log2 : Int) - 52 + 1074).toNat = n.log2 + 1022 := by omega
  have hup : (-((n.log2 : Int) - 52)).toNat = 52 - n.log2 := by omega
  have hdown : ((n.log2 : Int) - 52).toNat = n.log2 - 52 := by omega
  rw [nearestMagnitude, if_neg hn]
  simp only [floorLog2_one hn, hscale, hplaces, scaleDown, hup, hdown, Nat.one_mul, leading]

theorem shift_bounds (hn : n ≠ 0) :
    2 ^ 52 * 2 ^ (n.log2 - 52) ≤ n * 2 ^ (52 - n.log2) ∧
      n * 2 ^ (52 - n.log2) < 2 ^ 53 * 2 ^ (n.log2 - 52) := by
  have hplaces (k : Nat) :
      2 ^ (52 + k) * 2 ^ (n.log2 - 52) = 2 ^ (n.log2 + k) * 2 ^ (52 - n.log2) := by
    rw [← Nat.pow_add, ← Nat.pow_add]
    congr 1
    omega
  constructor
  · rw [hplaces 0]
    exact Nat.mul_le_mul_right _ (Nat.log2_self_le hn)
  · rw [hplaces 1]
    exact Nat.mul_lt_mul_of_pos_right Nat.lt_log2_self (Nat.two_pow_pos _)

/-- There are fifty-three leading digits, and a carry can make them the next power of two. -/
theorem leading_bounds (hn : n ≠ 0) : 2 ^ 52 ≤ leading n ∧ leading n ≤ 2 ^ 53 := by
  obtain ⟨hlow, hhigh⟩ := shift_bounds hn
  have hpos : 0 < 2 ^ (n.log2 - 52) := Nat.two_pow_pos _
  constructor
  · exact ((Nat.le_div_iff_mul_le hpos).mpr hlow).trans (div_le_roundHalfEven _ _)
  · exact (roundHalfEven_le_succ _ _).trans ((Nat.div_lt_iff_lt_mul hpos).mpr hhigh)

theorem nearestMagnitude_mono (h : m ≤ n) : nearestMagnitude m 1 ≤ nearestMagnitude n 1 := by
  by_cases hm : m = 0
  · rw [hm]
    exact Nat.zero_le _
  have hn : n ≠ 0 := by omega
  rw [nearestMagnitude_one hm, nearestMagnitude_one hn]
  refine min_le_min_right _ ?_
  have hlog : m.log2 ≤ n.log2 := by
    rw [Nat.le_log2 hn]
    exact (Nat.log2_self_le hm).trans h
  rcases Nat.lt_or_eq_of_le hlog with hlt | heq
  · -- a carry of the lesser integer reaches the next power of two, and no further
    have hleading := (leading_bounds hm).2
    have hleading' := (leading_bounds hn).1
    omega
  · rw [leading, leading, heq]
    exact Nat.add_le_add_left (roundHalfEven_mono (Nat.mul_le_mul_right _ h)) _

/-- Up to `2 ^ 53` no digit is rounded away. -/
theorem unitsOfMagnitude_nearestMagnitude (h : n ≤ 2 ^ 53) :
    unitsOfMagnitude (nearestMagnitude n 1) = n * unitsPerOne := by
  by_cases hn : n = 0
  · rw [hn, Nat.zero_mul]
    rfl
  rcases Nat.lt_or_eq_of_le h with hlt | rfl
  · have hlog : n.log2 < 53 := (Nat.log2_lt hn).mpr hlt
    have hnone : n.log2 - 52 = 0 := by omega
    obtain ⟨hlow, hhigh⟩ := shift_bounds hn
    rw [hnone, Nat.pow_zero, Nat.mul_one] at hlow hhigh
    have hleading : leading n = n * 2 ^ (52 - n.log2) := by
      rw [leading, hnone, Nat.pow_zero, roundHalfEven_one]
    have hinf := infinityMagnitude_eq
    -- the digits fill the fraction, and the leading one is implied
    have hmagnitude : nearestMagnitude n 1 = (n.log2 + 1022) * 2 ^ 52 + leading n := by
      rw [nearestMagnitude_one hn]
      omega
    have hfield : nearestMagnitude n 1 / 2 ^ 52 - 1 = n.log2 + 1022 := by omega
    have hdigits : 2 ^ 52 + nearestMagnitude n 1 % 2 ^ 52 = n * 2 ^ (52 - n.log2) := by omega
    have hunit : 52 - n.log2 + (n.log2 + 1022) = 1074 := by omega
    rw [unitsOfMagnitude_normal (by omega), hfield, hdigits, Nat.mul_assoc, ← Nat.pow_add, hunit,
      unitsPerOne]
  · decide +kernel

end

/-! ## Numbers made from integers -/

section

variable {m n : Int}

theorem nearestMagnitude_le (n d : Nat) : nearestMagnitude n d ≤ infinityMagnitude := by
  unfold nearestMagnitude
  split
  · exact Nat.zero_le _
  · exact Nat.min_le_right _ _

theorem isNaN_ofInt (n : Int) : isNaN (ofInt n) = false :=
  isNaN_ofMagnitude (nearestMagnitude_le _ _)

theorem isNegative_ofInt (n : Int) : isNegative (ofInt n) = decide (n < 0) :=
  isNegative_ofMagnitude _ (nearestMagnitude_le _ _)

theorem magnitude_ofInt (n : Int) : magnitude (ofInt n) = nearestMagnitude n.natAbs 1 :=
  magnitude_ofMagnitude _ (nearestMagnitude_le _ _)

theorem nearestMagnitude_pos {n : Nat} (hn : n ≠ 0) : 0 < nearestMagnitude n 1 := by
  have hleading := (leading_bounds hn).1
  have hinf := infinityMagnitude_eq
  rw [nearestMagnitude_one hn]
  omega

theorem units_ofInt (n : Int) :
    units (ofInt n) = if n < 0 then -(unitsOfMagnitude (nearestMagnitude n.natAbs 1) : Int)
      else unitsOfMagnitude (nearestMagnitude n.natAbs 1) := by
  simp [units, isNegative_ofInt, magnitude_ofInt]

theorem units_ofInt_mono (h : m ≤ n) : units (ofInt m) ≤ units (ofInt n) := by
  have hmono {k l : Nat} (h : k ≤ l) :
      unitsOfMagnitude (nearestMagnitude k 1) ≤ unitsOfMagnitude (nearestMagnitude l 1) :=
    unitsOfMagnitude_strictMono.monotone (nearestMagnitude_mono h)
  have hpositive := hmono (k := m.natAbs) (l := n.natAbs)
  have hnegative := hmono (k := n.natAbs) (l := m.natAbs)
  rw [units_ofInt, units_ofInt]
  split <;> split <;> omega

/-- Up to `2 ^ 53` an integer is not rounded. -/
theorem units_ofInt_of_le (h : n.natAbs ≤ 2 ^ 53) : units (ofInt n) = n * (unitsPerOne : Int) := by
  rw [units_ofInt, unitsOfMagnitude_nearestMagnitude h]
  push_cast
  split <;> rename_i hn
  · rw [← Int.neg_mul, abs_of_neg hn, Int.neg_neg]
  · rw [abs_of_nonneg (Int.not_lt.mp hn)]

/-- The sign and the magnitude of a number made from an integer are known from its units: the zero
among them is positive. -/
theorem ofInt_eq_ofInt_iff : ofInt m = ofInt n ↔ units (ofInt m) = units (ofInt n) := by
  refine ⟨congrArg units, fun h => ?_⟩
  have hpos (k : Int) (hk : k < 0) : 0 < unitsOfMagnitude (nearestMagnitude k.natAbs 1) := by
    rw [← unitsOfMagnitude_zero, unitsOfMagnitude_lt_iff]
    exact nearestMagnitude_pos (by omega)
  have hm := hpos m
  have hn := hpos n
  rw [units_ofInt, units_ofInt] at h
  have hsign : m < 0 ↔ n < 0 := by split at h <;> split at h <;> omega
  have hmagnitude : nearestMagnitude m.natAbs 1 = nearestMagnitude n.natAbs 1 := by
    apply unitsOfMagnitude_strictMono.injective
    split at h <;> split at h <;> omega
  rw [ofInt, ofInt, hmagnitude, decide_eq_decide.mpr hsign]

/-- But for the negative zero, the place on the line is known from the signed magnitude. -/
theorem lineKey_eq_valueKey {x : Float} (hx : isNegative x = true → magnitude x ≠ 0) :
    lineKey x = if valueKey x < 0 then valueKey x - 1 else valueKey x := by
  rw [lineKey, valueKey]
  cases hneg : isNegative x with
  | false => exact (if_neg (by simp)).symm
  | true =>
    have hpos := hx hneg
    simp only [if_true]
    rw [if_pos (by omega)]

theorem totalCompare_eq_compare_units {x y : Float} (hx : isNegative x = true → magnitude x ≠ 0)
    (hy : isNegative y = true → magnitude y ≠ 0) :
    totalCompare x y = Ord.compare (units x) (units y) := by
  rw [← compare_valueKey, totalCompare, lineKey_eq_valueKey hx, lineKey_eq_valueKey hy]
  apply compare_congr
  · split <;> split <;> omega
  · split <;> split <;> omega

theorem magnitude_ofInt_ne_zero (h : isNegative (ofInt n) = true) : magnitude (ofInt n) ≠ 0 := by
  rw [isNegative_ofInt, decide_eq_true_eq] at h
  rw [magnitude_ofInt]
  exact (nearestMagnitude_pos (by omega)).ne'

/-- Two integers are compared as they are, unless they have one nearest number. -/
theorem totalCompare_ofInt (m n : Int) :
    totalCompare (ofInt m) (ofInt n) =
      if ofInt m = ofInt n then .eq else Ord.compare m n := by
  rw [totalCompare_eq_compare_units magnitude_ofInt_ne_zero magnitude_ofInt_ne_zero]
  split <;> rename_i h
  · rw [h]
    exact Std.compare_self
  · have hne : m ≠ n := fun hmn => h (congrArg ofInt hmn)
    have hle := units_ofInt_mono (m := m) (n := n)
    have hge := units_ofInt_mono (m := n) (n := m)
    rw [ofInt_eq_ofInt_iff] at h
    apply compare_congr
    · omega
    · omega

/-- Integers that rounding does not make one. -/
def KeptApart (m n : Int) : Prop := ofInt m = ofInt n → m = n

/-- Up to `2 ^ 53` rounding makes no two integers one. -/
theorem keptApart_of_le (hm : m.natAbs ≤ 2 ^ 53) (hn : n.natAbs ≤ 2 ^ 53) : KeptApart m n := by
  intro h
  rw [ofInt_eq_ofInt_iff, units_ofInt_of_le hm, units_ofInt_of_le hn] at h
  exact Int.eq_of_mul_eq_mul_right unitsPerOne_pos.ne' h

theorem not_keptApart : ¬ KeptApart (2 ^ 53) (2 ^ 53 + 1) := by
  intro h
  have hrounded : ofInt (2 ^ 53) = ofInt (2 ^ 53 + 1) := by decide +kernel
  have hone := h hrounded
  omega

end

end AlgebraicModel.Binary64
