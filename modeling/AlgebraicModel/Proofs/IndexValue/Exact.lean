import AlgebraicModel.Proofs.IndexValue.Order
import AlgebraicModel.Proofs.Text.Bytes
import Mathlib.Algebra.Order.Field.Rat
import Mathlib.Algebra.Order.Ring.Cast
import Mathlib.Order.Compare

/-!
# Index values are ordered by their exact values

An `ExactValue` says what an index value stands for without a word about bits: a rational number,
one of the two infinities, no number, or the bytes of a text. A number in binary64 has the value of
its unpacked form, a sign and a significand times a power of two. The comparison of index values,
with its range tests and roundings, is the comparison of exact values (`compare_eq_exact`), so it is
a total order up to equality, and an integer is found in a value exactly where the value is equal to
it (`exact_order`).
-/

set_option autoImplicit false

namespace AlgebraicModel

open Float.Model (UnpackedFloat)
open Float.Model.UnpackedFloat (Sign)

/-! ## Exact values -/

/-- What an index value stands for. -/
inductive ExactValue where
  /-- Below every finite number. -/
  | negInf
  /-- A finite number. -/
  | finite (q : ℚ)
  /-- Above every finite number. -/
  | posInf
  /-- No number, above all that are. -/
  | notANumber
  /-- The bytes of a text, above whatever is not a text. -/
  | text (bytes : List UInt8)

namespace ExactValue

/-- The kinds of values in their order. -/
def rank : ExactValue → Nat
  | negInf => 0
  | finite _ => 1
  | posInf => 2
  | notANumber => 3
  | text _ => 4

/-- The order of a dictionary for texts, the order of the rational numbers for finite numbers, and
the order of the kinds for whatever else. -/
def compare : ExactValue → ExactValue → Ordering
  | finite p, finite q => cmp p q
  | text s, text t => List.compareLex compareByte s t
  | v, w => Ord.compare v.rank w.rank

theorem compare_of_rank_ne {v w : ExactValue} (h : v.rank ≠ w.rank) :
    compare v w = Ord.compare v.rank w.rank := by
  cases v <;> cases w <;> first | rfl | exact absurd rfl h

/-- The value of a number in its unpacked form. -/
def ofUnpacked : UnpackedFloat → ExactValue
  | .notANumber => notANumber
  | .infinity .negative => negInf
  | .infinity .positive => posInf
  | .zero _ => finite 0
  | .finite s m e _ => finite ((s.apply m : Int) * (2 : ℚ) ^ e)

end ExactValue

namespace IndexValue

/-- The exact value. -/
def exact : IndexValue → ExactValue
  | int n => .finite n.toInt
  | float x => .ofUnpacked x.toModel.unpack
  | str s => .text (textBytes s)

end IndexValue

/-! ## The value of a binary64 number -/

namespace Binary64

theorem unitsOfMagnitude_eq_significand_mul (m : Nat) :
    unitsOfMagnitude m = significand m * 2 ^ (max (exponentField m) 1 - 1) := by
  unfold unitsOfMagnitude significand
  split
  · rename_i h
    rw [h]
    exact (Nat.mul_one _).symm
  · rename_i h
    have hmax : max (exponentField m) 1 = exponentField m := by omega
    rw [hmax]

/-- The exact value as a rational number. -/
def rational (x : Float) : ℚ := units x / unitsPerOne

theorem unitsPerOne_rational_pos : (0 : ℚ) < unitsPerOne := by
  exact_mod_cast unitsPerOne_pos

theorem int_mul_unitsPerOne_div (n : ℤ) :
    ((n * (unitsPerOne : ℤ) : ℤ) : ℚ) / unitsPerOne = n := by
  rw [Int.cast_mul, Int.cast_natCast, mul_div_assoc, div_self unitsPerOne_rational_pos.ne', mul_one]

theorem mul_zpow_sub (s k n : ℕ) :
    (s : ℚ) * 2 ^ ((k : ℤ) - n) = ((s * 2 ^ k : ℕ) : ℚ) / ((2 ^ n : ℕ) : ℚ) := by
  rw [zpow_sub₀ two_ne_zero, zpow_natCast, zpow_natCast, Nat.cast_mul, Nat.cast_pow, Nat.cast_pow,
    Nat.cast_ofNat, mul_div_assoc]

theorem significand_mul_zpow (m : Nat) :
    (significand m : ℚ) * 2 ^ scale m = unitsOfMagnitude m / unitsPerOne := by
  obtain ⟨k, hk⟩ : ∃ k, max (exponentField m) 1 = k + 1 := ⟨max (exponentField m) 1 - 1, by omega⟩
  have hscale : scale m = (k : ℤ) - (1074 : ℕ) := by
    unfold scale
    omega
  rw [unitsOfMagnitude_eq_significand_mul, hk, hscale, mul_zpow_sub, Nat.add_sub_cancel,
    unitsPerOne]

/-- The unpacked form of a finite number has the value that its units give. -/
theorem ofUnpacked_of_isFinite {x : Float} (h : isFinite x = true) :
    ExactValue.ofUnpacked x.toModel.unpack = .finite (rational x) := by
  have h : magnitude x < infinityMagnitude := by simpa [isFinite] using h
  rw [unpack_toModel, rational, units]
  by_cases hzero : magnitude x = 0
  · -- both zeros have no units
    have hunits : (if isNegative x then -((0 : Nat) : Int) else (0 : Nat)) = 0 := by
      split <;> rfl
    rw [hzero, unpacked_zero, unitsOfMagnitude_zero, hunits, Int.cast_zero, zero_div]
    rfl
  · have hvalue := significand_mul_zpow (magnitude x)
    rw [unpacked_of_ne_zero h hzero]
    cases isNegative x with
    | false => exact congrArg ExactValue.finite hvalue
    | true =>
      refine congrArg ExactValue.finite ?_
      simp only [signOf, Sign.apply, if_true, Int.cast_neg, Int.cast_natCast, neg_mul, hvalue,
        neg_div]

theorem cmp_rational_div (m n : ℤ) :
    cmp ((m : ℚ) / unitsPerOne) (n / unitsPerOne) = Ord.compare m n := by
  have hmono : StrictMono fun k : ℤ => (k : ℚ) / unitsPerOne := fun _ _ h =>
    div_lt_div_of_pos_right (Int.cast_lt.mpr h) unitsPerOne_rational_pos
  rw [hmono.cmp_map_eq m n]
  exact cmp_eq_compare m n

end Binary64

/-! ## Places and exact values -/

theorem Place.compare_of_band_ne {p q : Place} (h : p.band ≠ q.band) :
    Place.compare p q = Ord.compare p.band q.band := by
  rw [Place.compare, compareLex, compareOn]
  rcases Nat.lt_or_gt_of_ne h with h | h
  · rw [Nat.compare_eq_lt.mpr h]
    rfl
  · rw [Nat.compare_eq_gt.mpr h]
    rfl

namespace IndexValue

/-- The exact value that a place stands for. -/
inductive Stands : Place → ExactValue → Prop where
  | negInf : Stands ⟨0, 0, ""⟩ .negInf
  | finite (u : Int) : Stands ⟨1, u, ""⟩ (.finite (u / Binary64.unitsPerOne))
  | posInf : Stands ⟨2, 0, ""⟩ .posInf
  | notANumber : Stands ⟨3, 0, ""⟩ .notANumber
  | text (s : String) : Stands ⟨4, 0, s⟩ (.text (textBytes s))

theorem stands_exact (v : IndexValue) : Stands v.place v.exact := by
  cases v with
  | int n =>
    rw [exact, ← Binary64.int_mul_unitsPerOne_div n.toInt]
    exact .finite _
  | float x =>
    rw [exact, place]
    rcases Binary64.kind_cases x with hnan | ⟨hnan, hinf⟩ | ⟨hnan, hinf, hfin⟩
    · have hmagnitude : Binary64.infinityMagnitude < Binary64.magnitude x := by
        simpa [Binary64.isNaN] using hnan
      rw [floatPlace_of_isNaN hnan, Binary64.unpack_toModel, Binary64.unpacked_of_lt hmagnitude]
      exact .notANumber
    · have hmagnitude : Binary64.magnitude x = Binary64.infinityMagnitude := by
        simpa [Binary64.isInfinite] using hinf
      rw [floatPlace_of_isInfinite hinf, Binary64.unpack_toModel, hmagnitude,
        Binary64.unpacked_infinityMagnitude]
      cases Binary64.isNegative x with
      | false => exact .posInf
      | true => exact .negInf
    · rw [floatPlace_of_isFinite hfin, Binary64.ofUnpacked_of_isFinite hfin]
      exact .finite _
  | str s => exact .text s

theorem Stands.rank_eq {p : Place} {v : ExactValue} (h : Stands p v) : v.rank = p.band := by
  cases h <;> rfl

theorem Stands.compare_eq {p q : Place} {v w : ExactValue} (hp : Stands p v) (hq : Stands q w) :
    Place.compare p q = ExactValue.compare v w := by
  by_cases hrank : v.rank = w.rank
  · cases hp <;> cases hq <;> simp only [ExactValue.rank] at hrank
    case finite.finite u u' =>
      rw [Place.compare_units]
      exact (Binary64.cmp_rational_div u u').symm
    case text.text s t =>
      rw [ExactValue.compare, ← compare_textBytes]
      simp [Place.compare, compareLex, compareOn, Std.compare_self]
    case negInf.negInf => decide
    case posInf.posInf => decide
    case notANumber.notANumber => decide
    all_goals omega
  · rw [ExactValue.compare_of_rank_ne hrank, hp.rank_eq, hq.rank_eq]
    rw [hp.rank_eq, hq.rank_eq] at hrank
    exact Place.compare_of_band_ne hrank

/-- Values are compared as their exact values are. -/
theorem compare_eq_exact (v w : IndexValue) : compare v w = v.exact.compare w.exact := by
  rw [compare_eq_place]
  exact (stands_exact v).compare_eq (stands_exact w)

/-- The order of index values is the order of their exact values: a total order in which values that
are equal form classes, and the integer of a value is the one integer that it is equal to. -/
theorem exact_order :
    (∀ v w : IndexValue, compare v w = v.exact.compare w.exact) ∧
    (∀ u v w : IndexValue, (compare u v).isLE → (compare v w).isLE → (compare u w).isLE) ∧
    (∀ v w : IndexValue, compare w v = (compare v w).swap) ∧
    (Equivalence fun v w : IndexValue => compare v w = .eq) ∧
    (∀ (v : IndexValue) (n : Int64), v.int? = some n ↔ compare v (int n) = .eq) := by
  refine ⟨compare_eq_exact, fun _ _ _ => Std.TransCmp.isLE_trans,
    fun _ _ => Std.OrientedCmp.eq_swap, ⟨compare_self, ?_, ?_⟩,
    fun _ _ => compare_int_eq_eq_iff.symm⟩
  · intro v w h
    rw [compare_eq_eq_iff] at h ⊢
    exact h.symm
  · intro u v w huv hvw
    rw [compare_eq_eq_iff] at huv hvw ⊢
    exact huv.trans hvw

end IndexValue

end AlgebraicModel
