import AlgebraicModel.Decimal.Shortest
import AlgebraicModel.Proofs.Binary64.Rounding
import AlgebraicModel.Proofs.IndexValue.Exact

/-!
# Shortest decimals read back

A quotient that is the exact value of a magnitude is rounded to this magnitude
(`nearestMagnitude_eq_of_exact`), because its scale is that of the magnitude and nothing is left
over to be rounded. So the exact decimal of a finite magnitude reads back to it, and with it the
shortest one, which is searched for among those that do (`magnitude_shortest`).
-/

set_option autoImplicit false

namespace AlgebraicModel

-- Powers of numbers are those of core, whichever other instances are in scope.
attribute [local instance (high)] instPowNat

namespace Binary64

variable {n d m : Nat}

/-! ## The scale of a quotient -/

theorem two_zpow_sub (a b : Nat) : (2 : ℚ) ^ ((a : Int) - b) = (2 ^ a : Nat) / (2 ^ b : Nat) := by
  rw [zpow_sub₀ two_ne_zero, zpow_natCast, zpow_natCast, Nat.cast_pow, Nat.cast_pow, Nat.cast_ofNat]

theorem two_zpow_eq_div (s : Int) : (2 : ℚ) ^ s = (2 ^ s.toNat : Nat) / (2 ^ (-s).toNat : Nat) := by
  rw [← two_zpow_sub]
  congr 1
  omega

/-- The scaled quotient is at least one just where the quotient is at least the power of two. -/
theorem scaleDown_le_iff (hd : 0 < d) (s : Int) :
    (scaleDown n d s).2 ≤ (scaleDown n d s).1 ↔ (2 : ℚ) ^ s ≤ (n : ℚ) / d := by
  have hd' : (0 : ℚ) < d := by exact_mod_cast hd
  have hpow : (0 : ℚ) < ((2 ^ (-s).toNat : Nat) : ℚ) := by exact_mod_cast Nat.two_pow_pos _
  rw [two_zpow_eq_div, div_le_div_iff₀ hpow hd', scaleDown, ← Nat.cast_mul, ← Nat.cast_mul,
    Nat.cast_le, Nat.mul_comm d]

/-- The lengths of the two numbers give the scale of their quotient up to one. -/
theorem log2_div_bounds (hn : n ≠ 0) (hd : 0 < d) :
    (2 : ℚ) ^ ((n.log2 : Int) - d.log2 - 1) ≤ (n : ℚ) / d ∧
      (n : ℚ) / d < 2 ^ ((n.log2 : Int) - d.log2 + 1) := by
  have hd' : (0 : ℚ) < d := by exact_mod_cast hd
  have hpow (k : Nat) : (0 : ℚ) < (2 ^ k : Nat) := by exact_mod_cast Nat.two_pow_pos k
  have hlow : (n.log2 : Int) - d.log2 - 1 = n.log2 - ((d.log2 + 1 : Nat) : Int) := by omega
  have hhigh : (n.log2 : Int) - d.log2 + 1 = ((n.log2 + 1 : Nat) : Int) - d.log2 := by omega
  constructor
  · have hle : 2 ^ n.log2 * d ≤ n * 2 ^ (d.log2 + 1) :=
      Nat.mul_le_mul (Nat.log2_self_le hn) Nat.lt_log2_self.le
    rw [hlow, two_zpow_sub, div_le_div_iff₀ (hpow _) hd']
    exact_mod_cast hle
  · have hlt : n * 2 ^ d.log2 < 2 ^ (n.log2 + 1) * d :=
      Nat.mul_lt_mul_of_lt_of_le Nat.lt_log2_self (Nat.log2_self_le hd.ne') hd
    rw [hhigh, two_zpow_sub, div_lt_div_iff₀ hd' (hpow _)]
    exact_mod_cast hlt

/-- The scale of a quotient is the greatest power of two that is no greater than it. -/
theorem floorLog2_bounds (hn : n ≠ 0) (hd : 0 < d) :
    (2 : ℚ) ^ floorLog2 n d ≤ (n : ℚ) / d ∧ (n : ℚ) / d < 2 ^ (floorLog2 n d + 1) := by
  obtain ⟨hlow, hhigh⟩ := log2_div_bounds hn hd
  simp only [floorLog2]
  split
  case isTrue h => exact ⟨(scaleDown_le_iff hd _).mp h, hhigh⟩
  case isFalse h =>
    rw [scaleDown_le_iff hd, not_le] at h
    exact ⟨hlow, by rwa [Int.sub_add_cancel]⟩

theorem le_of_zpow_le_of_lt {a b : Int} {r : ℚ} (ha : (2 : ℚ) ^ a ≤ r) (hb : r < 2 ^ (b + 1)) :
    a ≤ b := by
  have hlt : a < b + 1 := (zpow_lt_zpow_iff_right₀ one_lt_two).mp (ha.trans_lt hb)
  omega

/-- The digits of a quotient are counted in the scale of the magnitude whose value it is. -/
theorem scale_of_exact (hn : n ≠ 0) (hd : 0 < d)
    (h : (n : ℚ) / d = significand m * (2 : ℚ) ^ scale m) :
    max (floorLog2 n d - 52) (-1074) = scale m := by
  obtain ⟨hlow, hhigh⟩ := floorLog2_bounds hn hd
  rw [h] at hlow hhigh
  have hpos : (0 : ℚ) < 2 ^ scale m := zpow_pos two_pos _
  -- no quotient has more than fifty-three digits in the scale of its magnitude
  have hupper : floorLog2 n d ≤ scale m + 52 := by
    refine le_of_zpow_le_of_lt hlow ?_
    have hlt : (significand m : ℚ) < 2 ^ (53 : Int) := by exact_mod_cast significand_lt m
    have hsum : scale m + 52 + 1 = 53 + scale m := by omega
    rw [hsum, zpow_add₀ two_ne_zero]
    exact mul_lt_mul_of_pos_right hlt hpos
  by_cases hfield : m / 2 ^ 52 = 0
  · have hscale : scale m = -1074 := by
      rw [scale, exponentField, hfield]
      rfl
    omega
  · -- a leading bit makes fifty-three digits
    have hlower : scale m + 52 ≤ floorLog2 n d := by
      refine le_of_zpow_le_of_lt ?_ hhigh
      have hle : (2 : ℚ) ^ (52 : Int) ≤ significand m := by
        rw [significand_normal hfield]
        exact_mod_cast Nat.le_add_right _ _
      rw [Int.add_comm, zpow_add₀ two_ne_zero]
      exact mul_le_mul_of_nonneg_right hle hpos.le
    have hscale : -1074 ≤ scale m := by
      rw [scale]
      omega
    omega

theorem roundHalfEven_mul (k : Nat) (hd : 0 < d) : roundHalfEven (k * d) d = k := by
  have hcases := roundHalfEven_cases (k * d) d
  rw [Nat.mul_mod_left, Nat.mul_div_cancel _ hd] at hcases
  omega

/-- The exact value of a finite magnitude is rounded to the magnitude. -/
theorem nearestMagnitude_eq_of_exact (hd : 0 < d) (hm : m < infinityMagnitude)
    (h : n * unitsPerOne = unitsOfMagnitude m * d) : nearestMagnitude n d = m := by
  have hunit : unitsPerOne ≠ 0 := by
    have hpos := unitsPerOne_pos
    omega
  by_cases hzero : m = 0
  · rw [hzero, unitsOfMagnitude_zero, Nat.zero_mul] at h
    rw [hzero, (Nat.mul_eq_zero.mp h).resolve_right hunit]
    rfl
  have hn : n ≠ 0 := by
    rintro rfl
    have hpos : unitsOfMagnitude 0 < unitsOfMagnitude m :=
      unitsOfMagnitude_lt_iff.mpr (Nat.pos_of_ne_zero hzero)
    rw [Nat.zero_mul] at h
    have hunits := (Nat.mul_eq_zero.mp h.symm).resolve_right hd.ne'
    omega
  have hvalue : (n : ℚ) / d = significand m * (2 : ℚ) ^ scale m := by
    have hd' : (d : ℚ) ≠ 0 := by exact_mod_cast hd.ne'
    rw [significand_mul_zpow, div_eq_div_iff hd' unitsPerOne_rational_pos.ne']
    exact_mod_cast h
  -- nothing is left over to be rounded
  have hscaled : (scaleDown n d (scale m)).1 = significand m * (scaleDown n d (scale m)).2 := by
    have hd' : (d : ℚ) ≠ 0 := by exact_mod_cast hd.ne'
    have hpow : ((2 ^ (-scale m).toNat : Nat) : ℚ) ≠ 0 := by
      exact_mod_cast (Nat.two_pow_pos _).ne'
    rw [two_zpow_eq_div, mul_div_assoc', div_eq_div_iff hd' hpow] at hvalue
    have hcross : n * 2 ^ (-scale m).toNat = significand m * 2 ^ (scale m).toNat * d := by
      exact_mod_cast hvalue
    rw [scaleDown, hcross, Nat.mul_assoc, Nat.mul_comm (2 ^ _)]
  have hsum : (scale m + 1074).toNat * 2 ^ 52 + significand m = m := by
    unfold scale significand exponentField fractionField
    split <;> omega
  have hrounded : roundHalfEven (scaleDown n d (scale m)).1 (scaleDown n d (scale m)).2 =
      significand m := by
    rw [hscaled]
    exact roundHalfEven_mul _ (Nat.mul_pos hd (Nat.two_pow_pos _))
  simp only [nearestMagnitude, if_neg hn, scale_of_exact hn hd hvalue, hrounded, hsum,
    Nat.min_eq_left hm.le]

end Binary64

namespace Decimal

open Binary64 (infinityMagnitude)

/-! ## Decimals that read back -/

/-- As many factors of five as there are factors of two in the unit make a decimal of the units. -/
theorem magnitude_mul_five_pow {m k : Nat} (hpos : m ≠ 0) (hm : m < infinityMagnitude)
    (hk : Binary64.unitsPerOne = 2 ^ k) :
    (Decimal.mk (Binary64.unitsOfMagnitude m * 5 ^ k) (-(k : Int))).magnitude = m := by
  have hunits : 0 < Binary64.unitsOfMagnitude m := by
    rw [← Binary64.unitsOfMagnitude_zero, Binary64.unitsOfMagnitude_lt_iff]
    omega
  have hdigits : 0 < Binary64.unitsOfMagnitude m * 5 ^ k :=
    Nat.mul_pos hunits (Nat.pow_pos (by decide))
  have hlog : k ≤ (Binary64.unitsOfMagnitude m * 5 ^ k).log2 := by
    rw [Nat.le_log2 hdigits.ne']
    exact (Nat.pow_le_pow_left (by decide) k).trans (Nat.le_mul_of_pos_left _ hunits)
  have hplaces : (-(k : Int)).toNat = 0 := by omega
  rw [magnitude, if_neg hdigits.ne', if_neg (by dsimp only; omega),
    if_neg (by dsimp only; omega)]
  refine Binary64.nearestMagnitude_eq_of_exact (Nat.pow_pos (by decide)) hm ?_
  simp only [ratio, hplaces, Int.neg_neg, Int.toNat_natCast, Nat.pow_zero, Nat.mul_one, hk]
  rw [Nat.mul_assoc, ← Nat.mul_pow]

/-- The exact decimal of a finite magnitude reads back to it. -/
theorem magnitude_exact {m : Nat} (hpos : m ≠ 0) (hm : m < infinityMagnitude) :
    (exact m).magnitude = m := by
  have hdecimal : exact m =
      ⟨Binary64.unitsOfMagnitude m * 5 ^ (1074 : Nat), -((1074 : Nat) : Int)⟩ := by
    rw [exact]
    congr 1
  have hunits : Binary64.unitsPerOne = 2 ^ (1074 : Nat) := by rw [Binary64.unitsPerOne]
  rw [hdecimal]
  exact magnitude_mul_five_pow (k := 1074) hpos hm hunits

/-- A decimal that is found on a grid reads back. -/
theorem magnitude_of_gridHit? {tie : Tie} {m : Nat} {g : Int} {d : Decimal}
    (h : gridHit? tie m g = some d) : d.magnitude = m := by
  have hfound := List.find?_some h
  simpa using hfound

/-- The shortest decimal of a finite magnitude reads back to it. -/
theorem magnitude_shortest (tie : Tie) {m : Nat} (hpos : m ≠ 0) (hm : m < infinityMagnitude) :
    (shortest tie m).magnitude = m := by
  rw [shortest]
  cases hfound : (List.range 80).findSome? fun (i : Nat) => gridHit? tie m (coarseGrid m - i) with
  | none => exact magnitude_exact hpos hm
  | some d =>
    obtain ⟨i, -, hi⟩ := List.exists_of_findSome?_eq_some hfound
    exact magnitude_of_gridHit? hi

end Decimal

end AlgebraicModel
