import AlgebraicModel.Binary64.Integer
import AlgebraicModel.Proofs.Binary64.Fields
import AlgebraicModel.Proofs.Binary64.Order

/-!
# Integers and binary64 numbers are compared by their values

The comparisons of the format order numbers as their units are ordered (`lt_iff_units_lt`,
`le_iff_units_le`), rounding toward zero keeps the whole units (`units_trunc`), and nothing stands
behind the point exactly where it changes nothing (`fract_beq_zero_iff`). From these three, the
detour of `compareInt` through range tests, a rounding and a second comparison comes to one
comparison of exact values (`compareInt_eq_compare_units`), and `integral?` finds the one integer
that a number is equal to (`integral?_eq_some_iff`).
-/

set_option autoImplicit false

namespace AlgebraicModel.Binary64

-- Powers of numbers are those of core, whichever other instances are in scope.
attribute [local instance (high)] instPowNat

/-! ## The order of the format -/

theorem compare_natCast (m n : Nat) : Ord.compare (m : Int) n = Ord.compare m n := by
  simp only [Ord.compare, compareOfLessAndEq, Int.ofNat_lt, Int.natCast_inj]

theorem compare_neg (a b : Int) : Ord.compare (-a) (-b) = (Ord.compare a b).swap := by
  have hswap : Ord.compare b a = (Ord.compare a b).swap := Std.OrientedCmp.eq_swap
  rw [← hswap]
  exact compare_congr (by omega) (by omega)

/-- A magnitude with its sign. -/
def signedMagnitude : Bool → Nat → Int
  | true, m => -m
  | false, m => m

/-- Positive numbers are ordered by exponent first and by significand next, which is the order of
their magnitudes. -/
theorem compare_scale_then_significand (m n : Nat) :
    (Ord.compare (scale m) (scale n)).then (Ord.compare (significand m) (significand n)) =
      Ord.compare m n := by
  have key {m n : Nat} (h : m < n) :
      scale m < scale n ∨ scale m = scale n ∧ significand m < significand n := by
    unfold scale significand exponentField fractionField
    split <;> split <;> omega
  rcases Nat.lt_trichotomy m n with h | rfl | h
  · rw [Nat.compare_eq_lt.mpr h]
    rcases key h with h | ⟨h, h'⟩
    · rw [Int.compare_eq_lt.mpr h]
      rfl
    · rw [Int.compare_eq_eq.mpr h, Nat.compare_eq_lt.mpr h']
      rfl
  · simp [Std.compare_self]
  · rw [Nat.compare_eq_gt.mpr h]
    rcases key h with h | ⟨h, h'⟩
    · rw [Int.compare_eq_gt.mpr h]
      rfl
    · rw [Int.compare_eq_eq.mpr h.symm, Nat.compare_eq_gt.mpr h']
      rfl

theorem compare_unpacked {negative negative' : Bool} {m n : Nat} (hm : m ≤ infinityMagnitude)
    (hn : n ≤ infinityMagnitude) :
    (unpacked negative m).compare (unpacked negative' n) =
      some (Ord.compare (signedMagnitude negative m) (signedMagnitude negative' n)) := by
  have hinf := infinityMagnitude_eq
  have hlt {a b : Int} (h : a < b) : some .lt = some (Ord.compare a b) :=
    congrArg some (Int.compare_eq_lt.mpr h).symm
  have hgt {a b : Int} (h : b < a) : some .gt = some (Ord.compare a b) :=
    congrArg some (Int.compare_eq_gt.mpr h).symm
  -- each is infinite, zero or another finite number
  have kinds (k : Nat) (hk : k ≤ infinityMagnitude) :
      k = infinityMagnitude ∨ k = 0 ∨ (k < infinityMagnitude ∧ k ≠ 0) := by omega
  rcases kinds m hm with rfl | rfl | ⟨hm, hm0⟩ <;> rcases kinds n hn with rfl | rfl | ⟨hn, hn0⟩
  · cases negative <;> cases negative' <;> decide
  · cases negative <;> cases negative' <;> decide
  · rw [unpacked_infinityMagnitude, unpacked_of_ne_zero hn hn0]
    cases negative with
    | false => exact hgt (by cases negative' <;> simp only [signedMagnitude] <;> omega)
    | true => exact hlt (by cases negative' <;> simp only [signedMagnitude] <;> omega)
  · cases negative <;> cases negative' <;> decide
  · cases negative <;> cases negative' <;> decide
  · rw [unpacked_zero, unpacked_of_ne_zero hn hn0]
    cases negative' with
    | false => exact hlt (by cases negative <;> simp only [signedMagnitude] <;> omega)
    | true => exact hgt (by cases negative <;> simp only [signedMagnitude] <;> omega)
  · rw [unpacked_infinityMagnitude, unpacked_of_ne_zero hm hm0]
    cases negative' with
    | false => exact hlt (by cases negative <;> simp only [signedMagnitude] <;> omega)
    | true => exact hgt (by cases negative <;> simp only [signedMagnitude] <;> omega)
  · rw [unpacked_zero, unpacked_of_ne_zero hm hm0]
    cases negative with
    | false => exact hgt (by cases negative' <;> simp only [signedMagnitude] <;> omega)
    | true => exact hlt (by cases negative' <;> simp only [signedMagnitude] <;> omega)
  · rw [unpacked_of_ne_zero hm hm0, unpacked_of_ne_zero hn hn0]
    have hmagnitudes := compare_scale_then_significand m n
    rw [← compare_natCast m n] at hmagnitudes
    cases negative <;> cases negative'
    · exact congrArg some hmagnitudes
    · exact hgt (by simp only [signedMagnitude]; omega)
    · exact hlt (by simp only [signedMagnitude]; omega)
    · -- among negative numbers the greater magnitude is the lesser number
      exact congrArg some ((congrArg Ordering.swap hmagnitudes).trans (compare_neg m n).symm)

theorem valueKey_eq (x : Float) : valueKey x = signedMagnitude (isNegative x) (magnitude x) := by
  unfold valueKey
  cases isNegative x <;> rfl

/-- The format's order is the order of exact values, an infinity standing for more units than any
finite number. -/
theorem partialCompare?_eq_some {x y : Float} (hx : isNaN x = false) (hy : isNaN y = false) :
    partialCompare? x y = some (Ord.compare (units x) (units y)) := by
  have hx : magnitude x ≤ infinityMagnitude := by simpa [isNaN] using hx
  have hy : magnitude y ≤ infinityMagnitude := by simpa [isNaN] using hy
  rw [← compare_valueKey, valueKey_eq, valueKey_eq, ← compare_unpacked hx hy, ← unpack_toModel,
    ← unpack_toModel]
  rfl

theorem partialCompare?_of_isNaN {x y : Float} (h : isNaN x = true ∨ isNaN y = true) :
    partialCompare? x y = none := by
  have hnone {z : Float} (hz : isNaN z = true) : z.toModel.unpack = .notANumber := by
    rw [unpack_toModel, unpacked_of_lt (by simpa [isNaN] using hz)]
  change x.toModel.unpack.compare y.toModel.unpack = none
  rcases h with h | h
  · rw [hnone h]
    rfl
  · rw [hnone h]
    cases x.toModel.unpack <;> rfl

theorem lt_iff_units_lt {x y : Float} (hx : isNaN x = false) (hy : isNaN y = false) :
    x < y ↔ units x < units y := by
  have h : x < y ↔ partialCompare? x y = some .lt := by
    change decide ((x.toModel.compare y.toModel == some .lt) = true) = true ↔ _
    simp [partialCompare?]
  rw [h, partialCompare?_eq_some hx hy, Option.some.injEq, Int.compare_eq_lt]

theorem le_iff_units_le {x y : Float} (hx : isNaN x = false) (hy : isNaN y = false) :
    x ≤ y ↔ units x ≤ units y := by
  have h : x ≤ y ↔ (partialCompare? x y).any Ordering.isLE = true := by
    change decide ((x.toModel.compare y.toModel).any (·.isLE) = true) = true ↔ _
    simp [partialCompare?]
  rw [h, partialCompare?_eq_some hx hy, Option.any_some, Int.isLE_compare]

theorem not_le_of_isNaN {x y : Float} (hy : isNaN y = true) : ¬ x ≤ y := by
  change ¬ decide ((x.toModel.compare y.toModel).any (·.isLE) = true) = true
  have h : x.toModel.compare y.toModel = none := partialCompare?_of_isNaN (.inr hy)
  rw [h]
  decide

/-- Numbers are equal when their exact values are, and nothing equals what is no number. -/
theorem beq_iff_units_eq {x y : Float} :
    (x == y) = true ↔ isNaN x = false ∧ isNaN y = false ∧ units x = units y := by
  change (partialCompare? x y == some .eq) = true ↔ _
  by_cases h : isNaN x = true ∨ isNaN y = true
  · rw [partialCompare?_of_isNaN h]
    refine iff_of_false Bool.false_ne_true ?_
    rintro ⟨hx, hy, -⟩
    rw [hx, hy] at h
    rcases h with h | h <;> cases h
  · push Not at h
    have hx : isNaN x = false := Bool.eq_false_iff.mpr h.1
    have hy : isNaN y = false := Bool.eq_false_iff.mpr h.2
    rw [partialCompare?_eq_some hx hy, beq_iff_eq, Option.some.injEq, Int.compare_eq_eq]
    constructor
    · intro hunits
      exact ⟨hx, hy, hunits⟩
    · rintro ⟨-, -, hunits⟩
      exact hunits

/-- The equality of the format is symmetric and transitive, though not reflexive. -/
instance instPartialEquivBEqFloat : PartialEquivBEq Float where
  symm h := by
    obtain ⟨hx, hy, hunits⟩ := beq_iff_units_eq.mp h
    exact beq_iff_units_eq.mpr ⟨hy, hx, hunits.symm⟩
  trans h h' := by
    obtain ⟨hx, -, hunits⟩ := beq_iff_units_eq.mp h
    obtain ⟨-, hz, hunits'⟩ := beq_iff_units_eq.mp h'
    exact beq_iff_units_eq.mpr ⟨hx, hz, hunits.trans hunits'⟩

/-- A number equals zero when all bits below its sign are clear. -/
theorem beq_zero_iff (x : Float) : (x == 0.0) = true ↔ magnitude x = 0 := by
  have hzero : isNaN 0.0 = false ∧ units 0.0 = 0 := by decide +kernel
  rw [beq_iff_units_eq, hzero.2]
  have hunits : units x = 0 ↔ magnitude x = 0 := by
    have hpos := unitsOfMagnitude_lt_iff (m := 0) (n := magnitude x)
    rw [unitsOfMagnitude_zero] at hpos
    unfold units
    split <;> omega
  constructor
  · rintro ⟨-, -, h⟩
    exact hunits.mp h
  · intro h
    have hnan : isNaN x = false := by
      rw [isNaN, h]
      rfl
    exact ⟨hnan, hzero.1, hunits.mpr h⟩

/-! ## Rounding toward zero -/

theorem wholeMagnitude_le (m : Nat) : wholeMagnitude m ≤ m := by
  unfold wholeMagnitude
  split <;> omega

theorem unitsOfMagnitude_normal {m : Nat} (h : m / 2 ^ 52 ≠ 0) :
    unitsOfMagnitude m = (2 ^ 52 + m % 2 ^ 52) * 2 ^ (m / 2 ^ 52 - 1) := by
  rw [unitsOfMagnitude, exponentField, if_neg h, fractionField]

section

variable {m : Nat}

theorem wholeMagnitude_of_lt (h : m / 2 ^ 52 < 1023) : wholeMagnitude m = 0 := by
  rw [wholeMagnitude, exponentField, if_pos h]

theorem wholeMagnitude_of_le (h : 1023 ≤ m / 2 ^ 52) :
    wholeMagnitude m = m - m % 2 ^ (1075 - m / 2 ^ 52) := by
  rw [wholeMagnitude, exponentField, if_neg (Nat.not_lt.mpr h)]

/-- The bits behind the point are bits of the fraction. -/
theorem mod_mod_fraction (h : 1023 ≤ m / 2 ^ 52) :
    m % 2 ^ 52 % 2 ^ (1075 - m / 2 ^ 52) = m % 2 ^ (1075 - m / 2 ^ 52) :=
  Nat.mod_mod_of_dvd _ (Nat.pow_dvd_pow 2 (by omega))

theorem wholeMagnitude_div (h : 1023 ≤ m / 2 ^ 52) : wholeMagnitude m / 2 ^ 52 = m / 2 ^ 52 := by
  have hle := Nat.mod_le (m % 2 ^ 52) (2 ^ (1075 - m / 2 ^ 52))
  rw [mod_mod_fraction h] at hle
  rw [wholeMagnitude_of_le h]
  omega

theorem wholeMagnitude_mod (h : 1023 ≤ m / 2 ^ 52) :
    wholeMagnitude m % 2 ^ 52 = m % 2 ^ 52 - m % 2 ^ (1075 - m / 2 ^ 52) := by
  have hle := Nat.mod_le (m % 2 ^ 52) (2 ^ (1075 - m / 2 ^ 52))
  rw [mod_mod_fraction h] at hle
  rw [wholeMagnitude_of_le h]
  omega

/-- What stands behind the point is what is left over from whole units. -/
theorem unitsOfMagnitude_mod (h : 1023 ≤ m / 2 ^ 52) :
    unitsOfMagnitude m % unitsPerOne =
      m % 2 ^ (1075 - m / 2 ^ 52) * 2 ^ (m / 2 ^ 52 - 1) := by
  rw [unitsOfMagnitude_normal (by omega)]
  by_cases hlarge : m / 2 ^ 52 ≤ 1075
  · -- the point stands inside the significand
    have hplaces : 1074 = 1075 - m / 2 ^ 52 + (m / 2 ^ 52 - 1) := by omega
    have hone : unitsPerOne = 2 ^ (1075 - m / 2 ^ 52) * 2 ^ (m / 2 ^ 52 - 1) := by
      rw [unitsPerOne, ← Nat.pow_add, ← hplaces]
    have hdvd : 2 ^ (1075 - m / 2 ^ 52) ∣ 2 ^ 52 := Nat.pow_dvd_pow 2 (by omega)
    rw [hone, Nat.mul_mod_mul_right, Nat.add_mod, Nat.mod_eq_zero_of_dvd hdvd, Nat.zero_add,
      Nat.mod_mod, mod_mod_fraction h]
  · -- the point stands behind it
    have hdvd : unitsPerOne ∣ 2 ^ (m / 2 ^ 52 - 1) := by
      rw [unitsPerOne]
      exact Nat.pow_dvd_pow (m := 1074) 2 (by omega)
    have hshift : 1075 - m / 2 ^ 52 = 0 := by omega
    rw [Nat.mod_eq_zero_of_dvd (Nat.dvd_mul_left_of_dvd hdvd _), hshift, Nat.pow_zero, Nat.mod_one,
      Nat.zero_mul]

/-- Clearing the bits behind the point leaves the units of a whole number. -/
theorem unitsOfMagnitude_wholeMagnitude (m : Nat) :
    unitsOfMagnitude (wholeMagnitude m) = unitsOfMagnitude m / unitsPerOne * unitsPerOne := by
  by_cases hsmall : m / 2 ^ 52 < 1023
  · -- below one, nothing is left
    have hone : unitsOfMagnitude (1023 * 2 ^ 52) = unitsPerOne := by decide +kernel
    have hlt : unitsOfMagnitude m < unitsPerOne := by
      rw [← hone]
      exact unitsOfMagnitude_strictMono (by omega)
    rw [wholeMagnitude_of_lt hsmall, Nat.div_eq_of_lt hlt, Nat.zero_mul, unitsOfMagnitude_zero]
  · have hlarge : 1023 ≤ m / 2 ^ 52 := Nat.not_lt.mp hsmall
    have hle := Nat.mod_le (m % 2 ^ 52) (2 ^ (1075 - m / 2 ^ 52))
    rw [mod_mod_fraction hlarge] at hle
    have hdiv := wholeMagnitude_div hlarge
    rw [Nat.div_mul_self_eq_mod_sub_self, unitsOfMagnitude_mod hlarge,
      unitsOfMagnitude_normal (m := wholeMagnitude m) (by omega),
      unitsOfMagnitude_normal (m := m) (by omega), hdiv, wholeMagnitude_mod hlarge, ← Nat.sub_mul,
      ← Nat.add_sub_assoc hle]

end

theorem isNaN_ofMagnitude {negative : Bool} {m : Nat} (h : m ≤ infinityMagnitude) :
    isNaN (ofMagnitude negative m) = false := by
  simpa [isNaN, magnitude_ofMagnitude negative h] using h

/-- Same sign, so the magnitudes decide. -/
theorem units_eq_iff {x y : Float} (h : isNegative x = isNegative y) :
    units x = units y ↔ magnitude x = magnitude y := by
  have hinj : unitsOfMagnitude (magnitude x) = unitsOfMagnitude (magnitude y) ↔
    magnitude x = magnitude y := unitsOfMagnitude_strictMono.injective.eq_iff
  rw [← hinj, units, units, h]
  split <;> omega

/-- The integer that a number is rounded to. -/
def whole (x : Float) : Int := (units x).tdiv unitsPerOne

section

variable {x : Float}

theorem isNegative_trunc (h : isNaN x = false) : isNegative (trunc x) = isNegative x := by
  have h : magnitude x ≤ infinityMagnitude := by simpa [isNaN] using h
  exact isNegative_ofMagnitude _ ((wholeMagnitude_le _).trans h)

theorem magnitude_trunc (h : isNaN x = false) :
    magnitude (trunc x) = wholeMagnitude (magnitude x) := by
  have h : magnitude x ≤ infinityMagnitude := by simpa [isNaN] using h
  exact magnitude_ofMagnitude _ ((wholeMagnitude_le _).trans h)

theorem isNaN_trunc (h : isNaN x = false) : isNaN (trunc x) = false := by
  have h : magnitude x ≤ infinityMagnitude := by simpa [isNaN] using h
  exact isNaN_ofMagnitude ((wholeMagnitude_le _).trans h)

theorem units_trunc (h : isNaN x = false) : units (trunc x) = whole x * unitsPerOne := by
  rw [units, isNegative_trunc h, magnitude_trunc h, unitsOfMagnitude_wholeMagnitude, whole, units]
  cases isNegative x with
  | false =>
    simp only [Bool.false_eq_true, if_false]
    rw [← Int.ofNat_tdiv, Int.natCast_mul]
  | true =>
    simp only [if_true]
    rw [Int.neg_tdiv, ← Int.ofNat_tdiv, Int.natCast_mul, Int.neg_mul]

/-- Nothing stands behind the point when rounding changes nothing. -/
theorem fract_beq_zero_iff (h : isFinite x = true) :
    (fract x == 0.0) = true ↔ units (trunc x) = units x := by
  have hnan := isNaN_of_isFinite h
  rw [beq_zero_iff, units_eq_iff (isNegative_trunc hnan)]
  by_cases hsmall : magnitude x / 2 ^ 52 < 1023
  · -- nothing is left of the number, so all of it stands behind the point
    have hzero : magnitude (trunc x) = 0 := by
      rw [magnitude_trunc hnan, wholeMagnitude_of_lt hsmall]
    rw [fract, magnitude_sub_zero hnan hzero, hzero, eq_comm]
  · -- the leading bit stays, and with it the scale
    have hlarge : 1023 ≤ magnitude x / 2 ^ 52 := Nat.not_lt.mp hsmall
    have hwhole := magnitude_trunc hnan
    have hdiv := wholeMagnitude_div hlarge
    have hle := wholeMagnitude_le (magnitude x)
    have hscale : scale (magnitude x) = scale (magnitude (trunc x)) := by
      rw [scale, scale, exponentField, exponentField, hwhole, hdiv]
    have hfinite : isFinite (trunc x) = true := by
      have h : magnitude x < infinityMagnitude := by simpa [isFinite] using h
      simpa [isFinite, hwhole] using hle.trans_lt h
    rw [fract, magnitude_sub_eq_zero_iff h hfinite (by omega) (by omega)
      (isNegative_trunc hnan).symm hscale, eq_comm]

end

/-! ## Integers of sixty-four bits -/

/-- A quotient rounded toward zero is less than one away from the exact one. -/
theorem mul_lt_of_lt_tdiv {a n u : Int} (hu : 0 < u) (h : n < a.tdiv u) : n * u < a := by
  have hrem := Int.lt_tmod_of_pos a hu
  have hsum := Int.mul_tdiv_add_tmod a u
  calc n * u = (n + 1) * u - u := by rw [Int.add_mul, Int.one_mul, Int.add_sub_cancel]
    _ ≤ a.tdiv u * u - u := Int.sub_le_sub_right (Int.mul_le_mul_of_nonneg_right h hu.le) u
    _ = u * a.tdiv u - u := by rw [Int.mul_comm]
    _ < a := by omega

theorem lt_mul_of_tdiv_lt {a n u : Int} (hu : 0 < u) (h : a.tdiv u < n) : a < n * u := by
  have hrem := Int.tmod_lt_of_pos a hu
  have hsum := Int.mul_tdiv_add_tmod a u
  calc a < u * a.tdiv u + u := by omega
    _ = (a.tdiv u + 1) * u := by rw [Int.add_mul, Int.one_mul, Int.mul_comm]
    _ ≤ n * u := Int.mul_le_mul_of_nonneg_right h hu.le

/-- The end of the words and its negative have the values that they stand for. -/
theorem wordEnd_exact :
    (isNaN wordEnd = false ∧ units wordEnd = 2 ^ 63 * (unitsPerOne : Int)) ∧
      isNaN (-wordEnd) = false ∧ units (-wordEnd) = -2 ^ 63 * (unitsPerOne : Int) := by
  decide +kernel

theorem isNaN_wordEnd : isNaN wordEnd = false := wordEnd_exact.1.1

theorem units_wordEnd : units wordEnd = 2 ^ 63 * (unitsPerOne : Int) := wordEnd_exact.1.2

theorem isNaN_neg_wordEnd : isNaN (-wordEnd) = false := wordEnd_exact.2.1

theorem units_neg_wordEnd : units (-wordEnd) = -2 ^ 63 * (unitsPerOne : Int) := wordEnd_exact.2.2

/-- A quotient rounded toward zero reaches an integer only where the exact one does. -/
theorem mul_le_of_le_tdiv {a n u : Int} (hu : 0 < u) (hn : 0 < n) (h : n ≤ a.tdiv u) :
    n * u ≤ a := by
  have hpos : 0 ≤ (n - 1) * u := Int.mul_nonneg (by omega) hu.le
  have hlt : (n - 1) * u < a := mul_lt_of_lt_tdiv hu (by omega)
  have hrem := Int.tmod_nonneg u (a := a) (by omega)
  have hsum := Int.mul_tdiv_add_tmod a u
  calc n * u ≤ a.tdiv u * u := Int.mul_le_mul_of_nonneg_right h hu.le
    _ = u * a.tdiv u := Int.mul_comm _ _
    _ ≤ a := by omega

section

variable {x : Float}

/-- Rounding toward zero a number in range leaves an integer in range. -/
theorem whole_bounds (hlow : -2 ^ 63 * (unitsPerOne : Int) ≤ units x)
    (hhigh : units x < 2 ^ 63 * (unitsPerOne : Int)) : -2 ^ 63 ≤ whole x ∧ whole x < 2 ^ 63 := by
  constructor
  · by_contra h
    exact absurd (lt_mul_of_tdiv_lt unitsPerOne_pos (Int.not_le.mp h)) (Int.not_lt.mpr hlow)
  · by_contra h
    exact absurd (mul_le_of_le_tdiv unitsPerOne_pos (by decide) (Int.not_lt.mp h))
      (Int.not_le.mpr hhigh)

theorem toInt_ofIntClamp_whole (hlow : -2 ^ 63 * (unitsPerOne : Int) ≤ units x)
    (hhigh : units x < 2 ^ 63 * (unitsPerOne : Int)) :
    (Int64.ofIntClamp (whole x)).toInt = whole x := by
  obtain ⟨hmin, hmax⟩ := whole_bounds hlow hhigh
  exact Int64.toInt_ofIntClamp hmin (Int.le_sub_one_of_lt hmax)

theorem toWord_trunc (h : isNaN x = false) : toWord (trunc x) = Int64.ofIntClamp (whole x) := by
  rw [toWord, isNaN_trunc h, units_trunc h, Int.mul_tdiv_cancel _ unitsPerOne_pos.ne']
  rfl

/-- An integer is compared with a number by exact value, an infinity standing for more units than
any integer. -/
theorem compareInt_eq_compare_units (n : Int64) (h : isNaN x = false) :
    compareInt n x = Ord.compare (n.toInt * (unitsPerOne : Int)) (units x) := by
  have hn := Int64.toInt_lt n
  have hn' := Int64.le_toInt n
  have hscaled {a b : Int} (hab : a ≤ b) : a * (unitsPerOne : Int) ≤ b * (unitsPerOne : Int) :=
    Int.mul_le_mul_of_nonneg_right hab unitsPerOne_pos.le
  rw [compareInt, h, Bool.false_or]
  by_cases hhigh : wordEnd ≤ x
  · -- past the greatest integer
    rw [decide_eq_true hhigh, if_pos rfl]
    rw [le_iff_units_le isNaN_wordEnd h, units_wordEnd] at hhigh
    refine (Int.compare_eq_lt.mpr (lt_of_lt_of_le ?_ hhigh)).symm
    exact Int.mul_lt_mul_of_pos_right hn unitsPerOne_pos
  rw [decide_eq_false hhigh, if_neg Bool.false_ne_true]
  rw [le_iff_units_le isNaN_wordEnd h, units_wordEnd, Int.not_le] at hhigh
  by_cases hlow : x < -wordEnd
  · -- before the least integer
    rw [if_pos hlow]
    rw [lt_iff_units_lt h isNaN_neg_wordEnd, units_neg_wordEnd] at hlow
    exact (Int.compare_eq_gt.mpr (lt_of_lt_of_le hlow (hscaled hn'))).symm
  rw [if_neg hlow]
  rw [lt_iff_units_lt h isNaN_neg_wordEnd, units_neg_wordEnd, Int.not_lt] at hlow
  rw [toWord_trunc h, toInt_ofIntClamp_whole hlow hhigh,
    partialCompare?_eq_some (isNaN_trunc h) h, Option.getD_some, units_trunc h]
  -- the rounded number decides unless the integer is equal to it
  rcases Int.lt_trichotomy n.toInt (whole x) with hlt | heq | hgt
  · rw [Int.compare_eq_lt.mpr hlt]
    exact (Int.compare_eq_lt.mpr (mul_lt_of_lt_tdiv unitsPerOne_pos hlt)).symm
  · rw [Int.compare_eq_eq.mpr heq, heq]
  · rw [Int.compare_eq_gt.mpr hgt]
    exact (Int.compare_eq_gt.mpr (lt_mul_of_tdiv_lt unitsPerOne_pos hgt)).symm

theorem compareInt_of_isNaN (n : Int64) (h : isNaN x = true) : compareInt n x = .lt := by
  rw [compareInt, h, Bool.true_or, if_pos rfl]

/-- An infinity stands for more units than the ends of the integers. -/
theorem wordEnd_units_lt_infinity :
    2 ^ 63 * (unitsPerOne : Int) < (unitsOfMagnitude infinityMagnitude : Int) := by
  decide +kernel

theorem compareInt_of_isInfinite (n : Int64) (h : isInfinite x = true) :
    compareInt n x = if isNegative x then .gt else .lt := by
  have hmagnitude : magnitude x = infinityMagnitude := by simpa [isInfinite] using h
  have hend := wordEnd_units_lt_infinity
  have hlow : -2 ^ 63 * (unitsPerOne : Int) ≤ n.toInt * (unitsPerOne : Int) :=
    Int.mul_le_mul_of_nonneg_right (Int64.le_toInt n) unitsPerOne_pos.le
  have hhigh : n.toInt * (unitsPerOne : Int) < 2 ^ 63 * (unitsPerOne : Int) :=
    Int.mul_lt_mul_of_pos_right (Int64.toInt_lt n) unitsPerOne_pos
  rw [compareInt_eq_compare_units n (isNaN_of_isInfinite h), units, hmagnitude]
  cases isNegative x with
  | false =>
    rw [if_neg Bool.false_ne_true, if_neg Bool.false_ne_true]
    exact Int.compare_eq_lt.mpr (hhigh.trans hend)
  | true =>
    rw [if_pos rfl, if_pos rfl]
    exact Int.compare_eq_gt.mpr (by omega)

/-- The range test lets finite numbers pass, those from `-2 ^ 63` on and below `2 ^ 63`. -/
theorem inRange_iff :
    (-wordEnd ≤ x ∧ x < wordEnd) ↔ isFinite x = true ∧
      -2 ^ 63 * (unitsPerOne : Int) ≤ units x ∧ units x < 2 ^ 63 * (unitsPerOne : Int) := by
  cases hnan : isNaN x with
  | true =>
    refine iff_of_false (fun h => not_le_of_isNaN hnan h.1) fun h => ?_
    rw [isNaN_of_isFinite h.1] at hnan
    cases hnan
  | false =>
    rw [le_iff_units_le isNaN_neg_wordEnd hnan, lt_iff_units_lt hnan isNaN_wordEnd, units_wordEnd,
      units_neg_wordEnd]
    refine (and_iff_right_of_imp ?_).symm
    rintro ⟨hlow, hhigh⟩
    have hend := wordEnd_units_lt_infinity
    rw [isFinite, decide_eq_true_eq, ← unitsOfMagnitude_lt_iff]
    cases hneg : isNegative x with
    | false =>
      simp only [units, hneg, Bool.false_eq_true, if_false] at hlow hhigh
      omega
    | true =>
      simp only [units, hneg, if_true] at hlow hhigh
      omega

/-- A number has an integer exactly when it is finite and stands for as many units. -/
theorem integral?_eq_some_iff {n : Int64} :
    integral? x = some n ↔
      isFinite x = true ∧ units x = n.toInt * (unitsPerOne : Int) := by
  have htest : (fract x == 0.0 && -wordEnd ≤ x && x < wordEnd) = true ↔
      (fract x == 0.0) = true ∧ -wordEnd ≤ x ∧ x < wordEnd := by
    simp [and_assoc]
  rw [integral?, Option.ite_none_right_eq_some, htest, inRange_iff, Option.some.injEq]
  constructor
  · rintro ⟨⟨hfract, hfin, hlow, hhigh⟩, rfl⟩
    have hnan := isNaN_of_isFinite hfin
    have hword : toWord x = Int64.ofIntClamp (whole x) := by
      rw [toWord, hnan]
      rfl
    rw [fract_beq_zero_iff hfin, units_trunc hnan] at hfract
    rw [hword, toInt_ofIntClamp_whole hlow hhigh]
    exact ⟨hfin, hfract.symm⟩
  · rintro ⟨hfin, hunits⟩
    have hnan := isNaN_of_isFinite hfin
    have hwhole : whole x = n.toInt := by
      rw [whole, hunits, Int.mul_tdiv_cancel _ unitsPerOne_pos.ne']
    have hlow : -2 ^ 63 * (unitsPerOne : Int) ≤ units x := by
      rw [hunits]
      exact Int.mul_le_mul_of_nonneg_right (Int64.le_toInt n) unitsPerOne_pos.le
    have hhigh : units x < 2 ^ 63 * (unitsPerOne : Int) := by
      rw [hunits]
      exact Int.mul_lt_mul_of_pos_right (Int64.toInt_lt n) unitsPerOne_pos
    refine ⟨⟨?_, hfin, hlow, hhigh⟩, ?_⟩
    · rw [fract_beq_zero_iff hfin, units_trunc hnan, hwhole, hunits]
    · rw [toWord, hnan]
      change Int64.ofIntClamp (whole x) = n
      rw [hwhole, Int64.ofIntClamp_toInt]

end

end AlgebraicModel.Binary64
