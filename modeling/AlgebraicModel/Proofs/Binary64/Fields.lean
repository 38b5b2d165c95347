import AlgebraicModel.Binary64.Basic
import Mathlib

/-!
# Binary64 numbers and their model

`Float` computes on a model that unpacks the bits to a sign, a significand and a power of two, works
on these, and packs the result. `Binary64` reads the same bits as a sign and a magnitude. Here the
two readings meet: unpacking gives what sign and magnitude say (`unpack_toModel`), and a number made
from a sign and a magnitude has these (`isNegative_ofMagnitude`, `magnitude_ofMagnitude`).
Subtraction is opened as far as two facts need it: taking zero away changes no number (`sub_zero`),
and the difference of two numbers of one sign and one scale is zero only where they are equal
(`magnitude_sub_eq_zero_iff`).
-/

set_option autoImplicit false

namespace AlgebraicModel.Binary64

-- Powers of numbers are those of core, whichever other instances are in scope.
attribute [local instance (high)] instPowNat

open Float.Model (Format UnpackedFloat totalExponent)
open Float.Model.UnpackedFloat (Sign unpackSign unpackExponent unpackMantissa packComponents
  shiftToTargetExponent shiftToExponent decreaseExponent ExtendedMantissa roundWithAccuracy)

/-! ## Fields -/

/-- The significand of a magnitude, its leading bit included. -/
def significand (m : Nat) : Nat :=
  if exponentField m = 0 then fractionField m else 2 ^ (52 : Nat) + fractionField m

/-- The power of two that a significand counts. -/
def scale (m : Nat) : Int := max (exponentField m : Int) 1 - 1075

/-- The sign that a sign bit stands for. -/
def signOf (negative : Bool) : Sign := if negative then .negative else .positive

/-- The bits of a sign and a magnitude. -/
def bitsOf (negative : Bool) (m : Nat) : Nat := if negative then 2 ^ (63 : Nat) + m else m

theorem infinityMagnitude_eq : infinityMagnitude = 2047 * 2 ^ 52 := rfl

theorem significand_subnormal {m : Nat} (h : m / 2 ^ 52 = 0) : significand m = m := by
  rw [significand, exponentField, if_pos h, fractionField]
  omega

theorem significand_normal {m : Nat} (h : m / 2 ^ 52 ≠ 0) :
    significand m = 2 ^ 52 + m % 2 ^ 52 := by
  rw [significand, exponentField, if_neg h, fractionField]

theorem significand_pos {m : Nat} (h : m ≠ 0) : 0 < significand m := by
  by_cases hfield : m / 2 ^ 52 = 0
  · rw [significand_subnormal hfield]
    omega
  · rw [significand_normal hfield]
    omega

theorem significand_lt (m : Nat) : significand m < 2 ^ 53 := by
  unfold significand fractionField
  split <;> omega

/-- A magnitude is known by its scale and its significand. -/
theorem eq_of_scale_eq {m n : Nat} (hscale : scale m = scale n)
    (hsignificand : significand m = significand n) : m = n := by
  unfold scale exponentField at hscale
  unfold significand exponentField fractionField at hsignificand
  split at hsignificand <;> split at hsignificand <;> omega

/-- A sign and a magnitude as the format unpacks them. -/
def unpacked (negative : Bool) (m : Nat) : UnpackedFloat :=
  if infinityMagnitude < m then .notANumber
  else if m = infinityMagnitude then .infinity (signOf negative)
  else if h : m = 0 then .zero (signOf negative)
  else .finite (signOf negative) (significand m) (scale m) (significand_pos h)

theorem unpacked_of_lt {negative : Bool} {m : Nat} (h : infinityMagnitude < m) :
    unpacked negative m = .notANumber := by
  rw [unpacked, if_pos h]

theorem unpacked_infinityMagnitude (negative : Bool) :
    unpacked negative infinityMagnitude = .infinity (signOf negative) := by
  rw [unpacked, if_neg (Nat.lt_irrefl _), if_pos rfl]

theorem unpacked_zero (negative : Bool) : unpacked negative 0 = .zero (signOf negative) := by
  rfl

theorem unpacked_of_ne_zero {negative : Bool} {m : Nat} (h : m < infinityMagnitude) (hm : m ≠ 0) :
    unpacked negative m =
      .finite (signOf negative) (significand m) (scale m) (significand_pos hm) := by
  rw [unpacked, if_neg (by omega), if_neg (by omega), dif_neg hm]

section Unpacking

variable (b : BitVec Format.binary64.numBits)

theorem toNat_unpackMantissa : (unpackMantissa b).toNat = b.toNat % 2 ^ 52 := by
  simp [unpackMantissa, BitVec.extractLsb]

theorem toNat_unpackExponent : (unpackExponent b).toNat = b.toNat / 2 ^ 52 % 2 ^ 11 := by
  simp [unpackExponent, BitVec.extractLsb, Nat.shiftRight_eq_div_pow]

theorem unpackExponent_eq_full_iff :
    unpackExponent b = -1#_ ↔ b.toNat / 2 ^ 52 % 2 ^ 11 = 2047 := by
  rw [← toNat_unpackExponent]
  exact (BitVec.toNat_inj (x := unpackExponent b) (y := -1#11)).symm

theorem unpackExponent_eq_zero_iff :
    unpackExponent b = 0#_ ↔ b.toNat / 2 ^ 52 % 2 ^ 11 = 0 := by
  rw [← toNat_unpackExponent]
  exact (BitVec.toNat_inj (x := unpackExponent b) (y := 0#11)).symm

theorem unpackMantissa_eq_zero_iff : unpackMantissa b = 0#_ ↔ b.toNat % 2 ^ 52 = 0 := by
  rw [← toNat_unpackMantissa]
  exact (BitVec.toNat_inj (x := unpackMantissa b) (y := 0#52)).symm

theorem ofBitVec_unpackSign : Sign.ofBitVec (unpackSign b) = signOf (2 ^ 63 ≤ b.toNat) := by
  have hb : b.toNat < 2 ^ 64 := b.isLt
  have hsign : (unpackSign b).toNat = b.toNat / 2 ^ 63 % 2 := by
    change (b.extractLsb 63 63).toNat = _
    simp [BitVec.extractLsb, Nat.shiftRight_eq_div_pow]
  have hzero : unpackSign b = 0#1 ↔ ¬ 2 ^ 63 ≤ b.toNat := by
    rw [← BitVec.toNat_inj, hsign]
    change _ = 0 ↔ _
    omega
  unfold Sign.ofBitVec signOf
  by_cases h : 2 ^ 63 ≤ b.toNat
  · rw [if_neg (by simpa [hzero] using h), if_pos (by simpa using h)]
  · rw [if_pos (hzero.mpr h), if_neg (by simpa using h)]

theorem toNat_leading_append (f : BitVec 52) : (1#1 ++ f).toNat = 2 ^ 52 + f.toNat := by
  rw [BitVec.toNat_append, ← Nat.shiftLeft_add_eq_or_of_lt f.isLt, Nat.shiftLeft_eq]
  rfl

theorem finite_congr {s : Sign} {m m' : Nat} {e e' : Int} {h : 0 < m} {h' : 0 < m'} (hm : m = m')
    (he : e = e') : UnpackedFloat.finite s m e h = .finite s m' e' h' := by
  subst hm he
  rfl

/-- Unpacking reads off the sign and the magnitude. -/
theorem unpack_eq_unpacked :
    UnpackedFloat.unpack Format.binary64 b = unpacked (2 ^ 63 ≤ b.toNat) (b.toNat % 2 ^ 63) := by
  have hb : b.toNat < 2 ^ 64 := b.isLt
  have hf := toNat_unpackMantissa b
  have he := toNat_unpackExponent b
  have hinf := infinityMagnitude_eq
  have hscale : scale (b.toNat % 2 ^ 63) = max ((unpackExponent b).toNat : Int) 1 - 1075 := by
    rw [he]
    unfold scale exponentField
    omega
  unfold UnpackedFloat.unpack
  dsimp only
  rw [ofBitVec_unpackSign]
  by_cases h₁ : unpackExponent b = -1#_
  · -- a full exponent field is infinite, or no number
    have hexponent := (unpackExponent_eq_full_iff b).mp h₁
    rw [if_pos h₁]
    by_cases h₂ : unpackMantissa b = 0#_
    · have hmantissa := (unpackMantissa_eq_zero_iff b).mp h₂
      have hm : b.toNat % 2 ^ 63 = infinityMagnitude := by omega
      rw [if_pos h₂, hm, unpacked_infinityMagnitude]
    · have hmantissa := mt (unpackMantissa_eq_zero_iff b).mpr h₂
      rw [if_neg h₂, unpacked_of_lt (by omega)]
  · have hexponent := mt (unpackExponent_eq_full_iff b).mpr h₁
    rw [if_neg h₁]
    by_cases h₀ : unpackExponent b = 0#_
    · -- an empty one is zero, or a number without the leading bit
      have hexponent := (unpackExponent_eq_zero_iff b).mp h₀
      rw [if_pos h₀]
      by_cases h₂ : unpackMantissa b = 0#_
      · have hmantissa := (unpackMantissa_eq_zero_iff b).mp h₂
        have hm : b.toNat % 2 ^ 63 = 0 := by omega
        rw [dif_pos h₂, hm, unpacked_zero]
      · have hmantissa := mt (unpackMantissa_eq_zero_iff b).mpr h₂
        rw [dif_neg h₂, unpacked_of_ne_zero (by omega) (by omega)]
        apply finite_congr
        · rw [significand_subnormal (by omega), hf]
          omega
        · rw [hscale, he, hexponent]
          rfl
    · have hexponent' := mt (unpackExponent_eq_zero_iff b).mpr h₀
      rw [if_neg h₀, unpacked_of_ne_zero (by omega) (by omega)]
      apply finite_congr
      · rw [toNat_leading_append, significand_normal (by omega), hf]
        omega
      · rw [hscale]
        change ((unpackExponent b).toNat : Int) - (1023 + 52) = _
        omega

/-- The exponent field is full and the fraction field is not empty for no number only. -/
theorem isNaNBits_iff :
    UnpackedFloat.isNaNBits b = true ↔ infinityMagnitude < b.toNat % 2 ^ 63 := by
  have hb : b.toNat < 2 ^ 64 := b.isLt
  have hinf := infinityMagnitude_eq
  rw [UnpackedFloat.isNaNBits, decide_eq_true_eq, Ne, unpackExponent_eq_full_iff,
    unpackMantissa_eq_zero_iff]
  omega

end Unpacking

theorem toNat_packComponents (negative : Bool) (e f : Nat) :
    (packComponents Format.binary64 (signOf negative) (.ofNat 11 e) (.ofNat 52 f)).toNat =
      bitsOf negative (e % 2 ^ 11 * 2 ^ 52 + f % 2 ^ 52) := by
  unfold packComponents
  rw [BitVec.toNat_append, BitVec.toNat_append, ← Nat.shiftLeft_add_eq_or_of_lt (BitVec.isLt _),
    ← Nat.shiftLeft_add_eq_or_of_lt (BitVec.isLt _), Nat.shiftLeft_eq, Nat.shiftLeft_eq,
    BitVec.toNat_ofNat, BitVec.toNat_ofNat]
  cases negative with
  | false => simp [signOf, bitsOf, Sign.toBitVec]
  | true =>
    simp only [signOf, bitsOf, Sign.toBitVec]
    change (1 * 2 ^ 11 + _) * 2 ^ 52 + _ = 2 ^ 63 + _
    omega

/-! ## Numbers -/

theorem unpack_toModel (x : Float) :
    x.toModel.unpack = unpacked (isNegative x) (magnitude x) :=
  unpack_eq_unpacked x.toModel.toBits.toBitVec

theorem toNat_toBits_ofMagnitude (negative : Bool) {m : Nat} (h : m ≤ infinityMagnitude) :
    (ofMagnitude negative m).toBits.toNat = bitsOf negative m := by
  have hinf := infinityMagnitude_eq
  have hbits : (UInt64.ofNat (bitsOf negative m)).toBitVec.toNat = bitsOf negative m := by
    change (UInt64.ofNat (bitsOf negative m)).toNat = bitsOf negative m
    rw [UInt64.toNat_ofNat']
    unfold bitsOf
    split <;> omega
  -- the exponent field is full for the infinities only
  have hnumber (b : BitVec Format.binary64.numBits) (hb : b.toNat = bitsOf negative m) :
      ¬ UnpackedFloat.isNaNBits b = true := by
    rw [isNaNBits_iff, hb, bitsOf]
    split <;> omega
  change (UnpackedFloat.pack Format.binary64 (UnpackedFloat.unpack Format.binary64
    (UInt64.ofNat (bitsOf negative m)).toBitVec)).toNat = bitsOf negative m
  rw [UnpackedFloat.pack_unpack, if_neg (hnumber _ hbits), hbits]

theorem isNegative_ofMagnitude (negative : Bool) {m : Nat} (h : m ≤ infinityMagnitude) :
    isNegative (ofMagnitude negative m) = negative := by
  have hinf := infinityMagnitude_eq
  rw [isNegative, toNat_toBits_ofMagnitude negative h]
  cases negative with
  | false =>
    simp only [bitsOf, Bool.false_eq_true, if_false, decide_eq_false_iff_not]
    omega
  | true =>
    simp only [bitsOf, if_true, decide_eq_true_eq]
    omega

theorem magnitude_ofMagnitude (negative : Bool) {m : Nat} (h : m ≤ infinityMagnitude) :
    magnitude (ofMagnitude negative m) = m := by
  have hinf := infinityMagnitude_eq
  rw [magnitude, toNat_toBits_ofMagnitude negative h]
  cases negative <;> simp [bitsOf] <;> omega

/-! ## Differences -/

theorem toBits_ofModel_pack (u : UnpackedFloat) :
    (Float.ofModel (.pack u)).toBits.toNat = (UnpackedFloat.pack Format.binary64 u).toNat := by
  rfl

theorem toModel_sub (x y : Float) :
    x - y = Float.ofModel (.pack (.sub Format.binary64 x.toModel.unpack y.toModel.unpack)) := by
  rfl

/-- Taking away a zero leaves all bits below the sign. -/
theorem magnitude_sub_zero {x y : Float} (hx : isNaN x = false) (hy : magnitude y = 0) :
    magnitude (x - y) = magnitude x := by
  have hx : magnitude x ≤ infinityMagnitude := by simpa [isNaN] using hx
  rw [toModel_sub, unpack_toModel y, hy, unpacked_zero]
  by_cases hzero : magnitude x = 0
  · -- a zero less a zero is one of the two zeros
    have hsub : ∃ s, UnpackedFloat.sub Format.binary64 x.toModel.unpack
        (.zero (signOf (isNegative y))) = .zero s := by
      rw [unpack_toModel, hzero, unpacked_zero]
      cases isNegative x <;> cases isNegative y <;> exact ⟨_, rfl⟩
    obtain ⟨s, hsub⟩ := hsub
    rw [hsub, hzero]
    cases s <;> decide
  · -- any other number stays as it is
    have hsub : UnpackedFloat.sub Format.binary64 x.toModel.unpack
        (.zero (signOf (isNegative y))) = x.toModel.unpack := by
      rw [unpack_toModel]
      rcases Nat.lt_or_eq_of_le hx with hx | hx
      · rw [unpacked_of_ne_zero hx hzero]
        rfl
      · rw [hx, unpacked_infinityMagnitude]
        rfl
    rw [hsub]
    exact congrArg magnitude (Float.ofBits_toBits x)

/-- Taking zero away changes no number. -/
theorem sub_zero (x : Float) : x - 0.0 = x := by
  have hzero : (0.0 : Float).toModel.unpack = .zero .positive := by
    have hparts : isNegative 0.0 = false ∧ magnitude 0.0 = 0 := by decide +kernel
    rw [unpack_toModel, hparts.1, hparts.2]
    rfl
  have hsub : UnpackedFloat.sub Format.binary64 x.toModel.unpack (.zero .positive) =
      x.toModel.unpack := by
    cases x.toModel.unpack with
    | zero s => cases s <;> rfl
    | _ => rfl
  rw [toModel_sub, hzero, hsub]
  exact Float.ofBits_toBits x

/-- A significand that already has its scale is not moved. -/
theorem shiftToTargetExponent_self {m : Nat} {e : Int}
    (h : Format.binary64.targetExponent (totalExponent m e) = e) :
    shiftToTargetExponent Format.binary64 m e .exact = (⟨m, false, false⟩, e) := by
  have hzero : (e - e).toNat = 0 := by omega
  simp only [shiftToTargetExponent, shiftToExponent, h, hzero]
  exact congrArg (Prod.mk _) (Int.add_zero e)

theorem roundWithAccuracy_self {s : Sign} {m : Nat} {e : Int} (hm : 0 < m)
    (h : Format.binary64.targetExponent (totalExponent m e) = e) :
    roundWithAccuracy Format.binary64 s m e .exact = .finite s m e hm := by
  have hrounded : ExtendedMantissa.roundedMantissa ⟨m, false, false⟩ = m := rfl
  unfold roundWithAccuracy
  rw [shiftToTargetExponent_self h]
  dsimp only
  rw [hrounded, shiftToTargetExponent_self h]
  exact dif_neg (Nat.ne_of_gt hm)

theorem log2_mul_two_pow {m : Nat} (hm : 0 < m) (k : Nat) : (m * 2 ^ k).log2 = m.log2 + k := by
  refine (Nat.log2_eq_iff (Nat.mul_pos hm (Nat.two_pow_pos k)).ne').mpr ⟨?_, ?_⟩
  · rw [Nat.pow_add]
    exact Nat.mul_le_mul_right _ (Nat.log2_self_le hm.ne')
  · rw [Nat.add_right_comm, Nat.pow_add]
    exact Nat.mul_lt_mul_of_pos_right Nat.lt_log2_self (Nat.two_pow_pos k)

/-- A significand that fits the format is rounded by being moved to its scale. -/
theorem round_eq_finite {s : Sign} {m : Nat} {e : Int} (hm : 0 < m) (hfit : m < 2 ^ 53)
    (he : -1074 ≤ e) :
    ∃ M E h, .round Format.binary64 s m e = UnpackedFloat.finite s M E h ∧ M < 2 ^ 53 ∧
      -1074 ≤ E := by
  have hlog : m.log2 < 53 := (Nat.log2_lt hm.ne').mpr hfit
  have htarget (t : Int) : Format.binary64.targetExponent t = max (t - 53) (-1074) := rfl
  obtain ⟨k, hk⟩ : ∃ k : Nat, (k : Int) = e - max (m.log2 + 1 + e - 53) (-1074) :=
    ⟨(e - max (m.log2 + 1 + e - 53) (-1074)).toNat, by omega⟩
  have hshift : (m * 2 ^ k).log2 = m.log2 + k := log2_mul_two_pow hm k
  have hpos : 0 < m * 2 ^ k := Nat.mul_pos hm (Nat.two_pow_pos k)
  have hscale : Format.binary64.targetExponent (totalExponent (m * 2 ^ k) (e - k)) = e - k := by
    rw [htarget, totalExponent, hshift]
    omega
  refine ⟨m * 2 ^ k, e - k, hpos, ?_, ?_, ?_⟩
  · have hk : (e - Format.binary64.targetExponent (totalExponent m e)).toNat = k := by
      rw [htarget, totalExponent]
      omega
    simp only [UnpackedFloat.round, decreaseExponent, hk, Nat.shiftLeft_eq]
    exact roundWithAccuracy_self hpos hscale
  · exact (Nat.log2_lt hpos.ne').mp (by omega)
  · omega

/-- What fits the format and is not zero is not packed as zero. -/
theorem pack_finite_ne_zero {s : Sign} {M : Nat} {E : Int} {h : 0 < M} (hfit : M < 2 ^ 53)
    (hE : -1074 ≤ E) :
    (UnpackedFloat.pack Format.binary64 (.finite s M E h)).toNat % 2 ^ 63 ≠ 0 := by
  have hbias : Format.binary64.exponentBias = 1023 := rfl
  have hbits : Format.binary64.mantissaBits = 53 := rfl
  obtain ⟨negative, rfl⟩ : ∃ negative, s = signOf negative := by
    cases s with
    | negative => exact ⟨true, rfl⟩
    | positive => exact ⟨false, rfl⟩
  have hfields (e f : Nat) (hef : e % 2 ^ 11 ≠ 0 ∨ f % 2 ^ 52 ≠ 0) :
      (packComponents Format.binary64 (signOf negative) (.ofNat 11 e) (.ofNat 52 f)).toNat % 2 ^ 63
        ≠ 0 := by
    rw [toNat_packComponents, bitsOf]
    split <;> omega
  have hlog : M.log2 < 53 := (Nat.log2_lt h.ne').mpr hfit
  unfold UnpackedFloat.pack
  dsimp only
  rw [hbias, hbits]
  split
  · exact hfields 2047 0 (.inl (by decide))
  · split
    · -- the leading bit is implied, and the exponent field is not zero
      exact hfields _ M (.inl (by omega))
    · have hsmall : M < 2 ^ 52 := (Nat.log2_lt h.ne').mp (by omega)
      exact hfields 0 M (.inr (by omega))

/-- An exact result that fits the format is packed as zero only when it is zero. -/
theorem pack_normalize_eq_zero_iff {k e : Int} (hfit : k.natAbs < 2 ^ 53) (he : -1074 ≤ e) :
    (UnpackedFloat.pack Format.binary64 (.normalize Format.binary64 k e .positive)).toNat % 2 ^ 63 =
        0 ↔
      k = 0 := by
  have hround (s : Sign) {m : Nat} (hm : 0 < m) (hfit : m < 2 ^ 53) :
      (UnpackedFloat.pack Format.binary64 (.round Format.binary64 s m e)).toNat % 2 ^ 63 ≠ 0 := by
    obtain ⟨M, E, h, hround, hM, hE⟩ := round_eq_finite (s := s) hm hfit he
    rw [hround]
    exact pack_finite_ne_zero hM hE
  unfold UnpackedFloat.normalize
  split
  · rename_i hk
    have hk := Int.compare_eq_lt.mp hk
    exact iff_of_false (hround .negative (by omega) (by omega)) (by omega)
  · rename_i hk
    exact iff_of_true rfl (Int.compare_eq_eq.mp hk)
  · rename_i hk
    have hk := Int.compare_eq_gt.mp hk
    exact iff_of_false (hround .positive (by omega) (by omega)) (by omega)


theorem natAbs_apply_sub (s : Sign) (a b : Nat) :
    (s.apply a - s.apply b).natAbs = ((a : Int) - b).natAbs := by
  cases s with
  | negative =>
    change (-(a : Int) - -(b : Int)).natAbs = _
    omega
  | positive => rfl

/-- With one sign and one scale, the significands are subtracted as they are. -/
theorem sub_finite {s : Sign} {m m' : Nat} {e : Int} (h : 0 < m) (h' : 0 < m') :
    UnpackedFloat.sub Format.binary64 (.finite s m e h) (.finite s m' e h') =
      .normalize Format.binary64 (s.apply m - s.apply m') e .positive := by
  have hmoved (k : Nat) : (decreaseExponent k e e).1 = k := by
    simp [decreaseExponent]
  change UnpackedFloat.normalize Format.binary64
    (s.apply (decreaseExponent m e (min e e)).1 - s.apply (decreaseExponent m' e (min e e)).1)
    (min e e) .positive = _
  rw [Int.min_self, hmoved, hmoved]

/-- Two numbers of one sign and one scale leave zero only where they are equal. -/
theorem magnitude_sub_eq_zero_iff {x y : Float} (hx : isFinite x = true) (hy : isFinite y = true)
    (hx0 : magnitude x ≠ 0) (hy0 : magnitude y ≠ 0) (hsign : isNegative x = isNegative y)
    (hscale : scale (magnitude x) = scale (magnitude y)) :
    magnitude (x - y) = 0 ↔ magnitude x = magnitude y := by
  have hx : magnitude x < infinityMagnitude := by simpa [isFinite] using hx
  have hy : magnitude y < infinityMagnitude := by simpa [isFinite] using hy
  have hxfit := significand_lt (magnitude x)
  have hyfit := significand_lt (magnitude y)
  have hlow : -1074 ≤ scale (magnitude y) := by
    unfold scale
    omega
  have hsub : UnpackedFloat.sub Format.binary64 x.toModel.unpack y.toModel.unpack =
      .normalize Format.binary64
        ((signOf (isNegative y)).apply (significand (magnitude x)) -
          (signOf (isNegative y)).apply (significand (magnitude y)))
        (scale (magnitude y)) .positive := by
    rw [unpack_toModel, unpack_toModel, unpacked_of_ne_zero hx hx0, unpacked_of_ne_zero hy hy0,
      finite_congr rfl hscale, hsign]
    exact sub_finite (significand_pos hx0) _
  have habs := natAbs_apply_sub (signOf (isNegative y)) (significand (magnitude x))
    (significand (magnitude y))
  rw [magnitude, toModel_sub, toBits_ofModel_pack, hsub,
    pack_normalize_eq_zero_iff (by omega) hlow, ← Int.natAbs_eq_zero, habs]
  constructor
  · intro hzero
    exact eq_of_scale_eq hscale (by omega)
  · intro heq
    rw [heq, Int.sub_self, Int.natAbs_zero]

end AlgebraicModel.Binary64
