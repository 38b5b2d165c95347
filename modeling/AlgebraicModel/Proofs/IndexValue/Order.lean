import AlgebraicModel.IndexValue.Basic
import AlgebraicModel.Proofs.Binary64.Integer
import Mathlib.Data.List.Forall2

/-!
# The order of index values

`IndexValue.compare` has a case for each pair of kinds of values. Here it is one order on places:
the place of a value is its band (below all finite numbers, among them, above them, no number, a
text), its exact value and its text, and values are compared as their places are
(`compare_eq_place`). So the comparison is a preorder (`IndexValue.instTransCmp`), values are equal
exactly when they stand at the same place (`compare_eq_eq_iff`), and keys are ordered as well.
-/

set_option autoImplicit false

namespace AlgebraicModel

/-- A point of the line on which all index values stand. -/
structure Place where
  /-- Below all finite numbers, among them, above them, no number, a text. -/
  band : Nat
  /-- The exact value of a finite number, in units of `2 ^ -1074`. -/
  units : Int
  text : String

namespace Place

/-- The order along the line. -/
def compare : Place → Place → Ordering :=
  compareLex (compareOn band) (compareLex (compareOn units) (compareOn text))

instance : Std.TransCmp compare :=
  inferInstanceAs (Std.TransCmp (compareLex _ _))

theorem compare_eq_eq_iff {p q : Place} : compare p q = .eq ↔ p = q := by
  obtain ⟨b, u, t⟩ := p
  obtain ⟨b', u', t'⟩ := q
  simp only [compare, compareLex_eq_eq, compareOn, Std.compare_eq_iff_eq, mk.injEq]

theorem compare_of_band_lt {b c : Nat} {u v : Int} {s t : String} (h : b < c) :
    compare ⟨b, u, s⟩ ⟨c, v, t⟩ = .lt := by
  simp [compare, compareLex, compareOn, Nat.compare_eq_lt.mpr h]

theorem compare_of_band_gt {b c : Nat} {u v : Int} {s t : String} (h : c < b) :
    compare ⟨b, u, s⟩ ⟨c, v, t⟩ = .gt := by
  simp [compare, compareLex, compareOn, Nat.compare_eq_gt.mpr h]

theorem mk_ne_of_band_ne {b c : Nat} {u v : Int} {s t : String} (h : b ≠ c) :
    Place.mk b u s ≠ ⟨c, v, t⟩ := by
  intro heq
  exact h (congrArg band heq)

/-- In one band and with one text the units decide. -/
theorem compare_units (b : Nat) (u v : Int) (t : String) :
    compare ⟨b, u, t⟩ ⟨b, v, t⟩ = Ord.compare u v := by
  simp [compare, compareLex, compareOn, Std.compare_self]

end Place

namespace IndexValue

/-- The place of a number that is not an integer by kind. -/
def floatPlace (x : Float) : Place :=
  if Binary64.isNaN x then ⟨3, 0, ""⟩
  else if Binary64.isInfinite x then (if Binary64.isNegative x then ⟨0, 0, ""⟩ else ⟨2, 0, ""⟩)
  else ⟨1, Binary64.units x, ""⟩

/-- Where a value stands. -/
def place : IndexValue → Place
  | int n => ⟨1, n.toInt * Binary64.unitsPerOne, ""⟩
  | float x => floatPlace x
  | str s => ⟨4, 0, s⟩

theorem floatPlace_of_isNaN {x : Float} (h : Binary64.isNaN x = true) :
    floatPlace x = ⟨3, 0, ""⟩ := by
  simp [floatPlace, h]

theorem floatPlace_of_isInfinite {x : Float} (h : Binary64.isInfinite x = true) :
    floatPlace x = if Binary64.isNegative x then ⟨0, 0, ""⟩ else ⟨2, 0, ""⟩ := by
  simp [floatPlace, h, Binary64.isNaN_of_isInfinite h]

theorem floatPlace_of_isFinite {x : Float} (h : Binary64.isFinite x = true) :
    floatPlace x = ⟨1, Binary64.units x, ""⟩ := by
  rw [Binary64.isFinite_eq] at h
  have h : Binary64.isNaN x = false ∧ Binary64.isInfinite x = false := by simpa using h
  simp [floatPlace, h.1, h.2]

theorem floatPlace_band_le (x : Float) : (floatPlace x).band ≤ 3 := by
  unfold floatPlace
  repeat' split
  all_goals simp

theorem floatPlace_band_lt {x : Float} (h : Binary64.isNaN x = false) :
    (floatPlace x).band < 3 := by
  simp only [floatPlace, h, Bool.false_eq_true, if_false]
  repeat' split
  all_goals simp

/-- An integer against a number, by their places. -/
theorem compareInt_eq_place (n : Int64) (x : Float) :
    Binary64.compareInt n x = Place.compare (int n).place (floatPlace x) := by
  rw [place]
  rcases Binary64.kind_cases x with hnan | ⟨hnan, hinf⟩ | ⟨hnan, -, hfin⟩
  · -- every integer comes before what is no number
    rw [floatPlace_of_isNaN hnan, Place.compare_of_band_lt (by decide)]
    exact Binary64.compareInt_of_isNaN n hnan
  · -- an infinity is beyond every integer, on the side of its sign
    rw [floatPlace_of_isInfinite hinf, Binary64.compareInt_of_isInfinite n hinf]
    cases Binary64.isNegative x with
    | false => exact (Place.compare_of_band_lt (by decide)).symm
    | true => exact (Place.compare_of_band_gt (by decide)).symm
  · -- two exact values in the same units
    rw [floatPlace_of_isFinite hfin, Place.compare_units]
    exact Binary64.compareInt_eq_compare_units n hnan

/-- An infinite number against a finite one, by their places. -/
theorem compare_infinite_eq_place {x y : Float} (hx : Binary64.isInfinite x = true)
    (hy : Binary64.isFinite y = true) :
    Ord.compare (Binary64.valueKey x) (Binary64.valueKey y) =
      Place.compare (floatPlace x) (floatPlace y) := by
  rw [Binary64.compare_of_isInfinite hx hy, floatPlace_of_isInfinite hx,
    floatPlace_of_isFinite hy]
  cases Binary64.isNegative x with
  | false => exact (Place.compare_of_band_gt (by decide)).symm
  | true => exact (Place.compare_of_band_lt (by decide)).symm

/-- Two infinite numbers, by their places: only their signs matter. -/
theorem compare_infinities_eq_place {x y : Float} (hx : Binary64.isInfinite x = true)
    (hy : Binary64.isInfinite y = true) :
    Ord.compare (Binary64.valueKey x) (Binary64.valueKey y) =
      Place.compare (floatPlace x) (floatPlace y) := by
  have hmx : Binary64.magnitude x = Binary64.infinityMagnitude := by
    simpa [Binary64.isInfinite] using hx
  have hmy : Binary64.magnitude y = Binary64.infinityMagnitude := by
    simpa [Binary64.isInfinite] using hy
  rw [floatPlace_of_isInfinite hx, floatPlace_of_isInfinite hy, Binary64.valueKey,
    Binary64.valueKey, hmx, hmy]
  cases Binary64.isNegative x <;> cases Binary64.isNegative y <;> decide

/-- Two finite numbers, by their places: their units decide. -/
theorem compare_finite_eq_place {x y : Float} (hx : Binary64.isFinite x = true)
    (hy : Binary64.isFinite y = true) :
    Ord.compare (Binary64.valueKey x) (Binary64.valueKey y) =
      Place.compare (floatPlace x) (floatPlace y) := by
  rw [floatPlace_of_isFinite hx, floatPlace_of_isFinite hy, Place.compare_units]
  exact Binary64.compare_valueKey x y

/-- Two numbers by their places. -/
theorem compare_float_eq_place (x y : Float) :
    Binary64.compare x y = Place.compare (floatPlace x) (floatPlace y) := by
  rcases Binary64.kind_cases x with hx | ⟨hx, hxinf⟩ | ⟨hx, -, hxfin⟩
  · -- what is no number comes last, and is equal to itself
    cases hy : Binary64.isNaN y with
    | true =>
      rw [floatPlace_of_isNaN hx, floatPlace_of_isNaN hy, Place.compare_units]
      simp [Binary64.compare, hx, hy]
    | false =>
      rw [floatPlace_of_isNaN hx, Place.compare_of_band_gt (floatPlace_band_lt hy)]
      simp [Binary64.compare, hx, hy]
  · rcases Binary64.kind_cases y with hy | ⟨hy, hyinf⟩ | ⟨hy, -, hyfin⟩
    · rw [floatPlace_of_isNaN hy, Place.compare_of_band_lt (floatPlace_band_lt hx)]
      simp [Binary64.compare, hx, hy]
    · rw [Binary64.compare_eq_compare_valueKey hx hy]
      exact compare_infinities_eq_place hxinf hyinf
    · rw [Binary64.compare_eq_compare_valueKey hx hy]
      exact compare_infinite_eq_place hxinf hyfin
  · rcases Binary64.kind_cases y with hy | ⟨hy, hyinf⟩ | ⟨hy, -, hyfin⟩
    · rw [floatPlace_of_isNaN hy, Place.compare_of_band_lt (floatPlace_band_lt hx)]
      simp [Binary64.compare, hx, hy]
    · -- the case of an infinite number against a finite one, read backwards
      have hswap : Ord.compare (Binary64.valueKey x) (Binary64.valueKey y) =
          (Ord.compare (Binary64.valueKey y) (Binary64.valueKey x)).swap :=
        Std.OrientedCmp.eq_swap
      rw [Binary64.compare_eq_compare_valueKey hx hy, hswap,
        compare_infinite_eq_place hyinf hxfin, ← Std.OrientedCmp.eq_swap]
    · rw [Binary64.compare_eq_compare_valueKey hx hy]
      exact compare_finite_eq_place hxfin hyfin

/-- Values are ordered as their places are. -/
theorem compare_eq_place (v w : IndexValue) : compare v w = Place.compare v.place w.place := by
  cases v with
  | int m =>
    cases w with
    | int n =>
      rw [place, place, Place.compare_units]
      exact (Binary64.compare_mul_unitsPerOne m.toInt n.toInt).symm
    | float y => exact compareInt_eq_place _ _
    | str t => exact (Place.compare_of_band_lt (by decide)).symm
  | float x =>
    cases w with
    | int n =>
      rw [compare, compareInt_eq_place, ← Std.OrientedCmp.eq_swap]
      rfl
    | float y => exact compare_float_eq_place x y
    | str t => exact (Place.compare_of_band_lt (Nat.lt_succ_of_le (floatPlace_band_le x))).symm
  | str s =>
    cases w with
    | int n => exact (Place.compare_of_band_gt (by decide)).symm
    | float y => exact (Place.compare_of_band_gt (Nat.lt_succ_of_le (floatPlace_band_le y))).symm
    | str t =>
      simp [place, compare, Place.compare, compareLex, compareOn, Std.compare_self]

/-- Values are equal when they stand at the same place. -/
theorem compare_eq_eq_iff {v w : IndexValue} : compare v w = .eq ↔ v.place = w.place := by
  rw [compare_eq_place, Place.compare_eq_eq_iff]

theorem compare_self (v : IndexValue) : compare v v = .eq :=
  compare_eq_eq_iff.mpr rfl

instance instTransCmp : Std.TransCmp compare where
  eq_swap := by
    intro v w
    rw [compare_eq_place, compare_eq_place]
    exact Std.OrientedCmp.eq_swap
  isLE_trans := by
    intro u v w huv hvw
    rw [compare_eq_place] at huv hvw ⊢
    exact Std.TransCmp.isLE_trans huv hvw

/-! ## Integers -/

/-- A number stands at the place of the integer that it is equal to. -/
theorem floatPlace_eq_int_iff {x : Float} {n : Int64} :
    floatPlace x = (int n).place ↔ Binary64.integral? x = some n := by
  rw [Binary64.integral?_eq_some_iff, place]
  rcases Binary64.kind_cases x with hnan | ⟨hnan, hinf⟩ | ⟨hnan, hinf, hfin⟩
  · -- neither what is no number nor an infinity stands in the band of the integers
    rw [floatPlace_of_isNaN hnan, Binary64.isFinite_eq, hnan]
    exact iff_of_false (Place.mk_ne_of_band_ne (by decide)) fun h => Bool.false_ne_true h.1
  · rw [floatPlace_of_isInfinite hinf, Binary64.isFinite_eq, hnan, hinf]
    refine iff_of_false ?_ fun h => Bool.false_ne_true h.1
    cases Binary64.isNegative x with
    | false => exact Place.mk_ne_of_band_ne (by decide)
    | true => exact Place.mk_ne_of_band_ne (by decide)
  · rw [floatPlace_of_isFinite hfin, hfin, Place.mk.injEq]
    constructor
    · rintro ⟨-, hunits, -⟩
      exact ⟨rfl, hunits⟩
    · rintro ⟨-, hunits⟩
      exact ⟨rfl, hunits, rfl⟩

/-- The integer of a value is the one integer that it is equal to. -/
theorem compare_int_eq_eq_iff {v : IndexValue} {n : Int64} :
    compare v (int n) = .eq ↔ v.int? = some n := by
  rw [compare_eq_eq_iff]
  cases v with
  | int m =>
    have hunits : m.toInt * (Binary64.unitsPerOne : Int) = n.toInt * (Binary64.unitsPerOne : Int) ↔
      m.toInt = n.toInt := Int.mul_eq_mul_right_iff Binary64.unitsPerOne_pos.ne'
    rw [place, place, Place.mk.injEq, hunits, Int64.toInt_inj, int?_int, Option.some.injEq]
    constructor
    · rintro ⟨-, hmn, -⟩
      exact hmn
    · intro hmn
      exact ⟨rfl, hmn, rfl⟩
  | float x =>
    exact floatPlace_eq_int_iff
  | str s =>
    exact iff_of_false (Place.mk_ne_of_band_ne (by decide)) (by simp)

end IndexValue

/-! ## Keys -/

namespace Key

instance instTransCmp : Std.TransCmp compare :=
  inferInstanceAs (Std.TransCmp (List.compareLex IndexValue.compare))

theorem compare_self (k : Key) : compare k k = .eq :=
  Std.ReflCmp.compare_self

/-- Keys are equal when they have the same length and equal values throughout. -/
theorem compare_eq_eq_iff {k k' : Key} :
    compare k k' = .eq ↔ List.Forall₂ (fun v w => IndexValue.compare v w = .eq) k k' := by
  induction k generalizing k' with
  | nil =>
    cases k' with
    | nil => simp [compare, List.compareLex_nil_nil]
    | cons w k' => simp [compare, List.compareLex_nil_cons]
  | cons v k ih =>
    cases k' with
    | nil => simp [compare, List.compareLex_cons_nil]
    | cons w k' =>
      rw [List.forall₂_cons, ← ih]
      simp only [compare, List.compareLex_cons_cons, Ordering.then_eq_eq]

theorem compare_cons_eq_eq_iff {v w : IndexValue} {k k' : Key} :
    compare (v :: k) (w :: k') = .eq ↔ IndexValue.compare v w = .eq ∧ compare k k' = .eq := by
  rw [compare_eq_eq_iff, List.forall₂_cons, ← compare_eq_eq_iff]

theorem length_eq_of_compare_eq {k k' : Key} (h : compare k k' = .eq) : k.length = k'.length :=
  (compare_eq_eq_iff.mp h).length_eq

end Key

end AlgebraicModel
