import AlgebraicModel.Proofs.IndexValue.Identity

/-!
# What is written to a hasher

Tables that look index values up by hash need values to be hashed alike exactly when they are equal
in the order of index values. `IndexValue.hashWrites` is what a value writes to a hasher: an integer
and a number that is equal to one write the same, every other number writes a pattern of its own,
which is left open but for `SeparatesNumbers`. What is written is the same exactly for equal values
(`IndexValue.hashWrites_eq_iff`), and the same holds of keys (`Key.hashWrites_eq_iff`).
-/

set_option autoImplicit false

namespace AlgebraicModel

variable {π : Type}

/-- One thing that is written to a hasher, where `π` is the type of the patterns of numbers. -/
inductive HashWrite (π : Type) where
  /-- The sort of value. -/
  | tag (sort : Nat)
  | word (n : Int64)
  | number (pattern : π)
  | text (s : String)
  /-- The number of values of a key. -/
  | length (n : Nat)
deriving DecidableEq

/-- What is asked of the patterns: whatever is no number has one pattern, and no number other than
zero shares its pattern. -/
structure SeparatesNumbers (pattern : Float → π) : Prop where
  notANumber : ∀ x y, Binary64.isNaN x = true → Binary64.isNaN y = true → pattern x = pattern y
  number : ∀ x y, Binary64.isNaN x = false → Binary64.magnitude x ≠ 0 → Binary64.magnitude y ≠ 0 →
    pattern x = pattern y → x = y

/-- What an index value writes to a hasher. -/
def IndexValue.hashWrites (pattern : Float → π) : IndexValue → List (HashWrite π)
  | int n => [.tag 0, .word n]
  | float x =>
    match Binary64.integral? x with
    | some n => [.tag 0, .word n]
    | none => [.tag 1, .number (pattern x)]
  | str s => [.tag 2, .text s]

/-- What a key writes to a hasher. -/
def Key.hashWrites (pattern : Float → π) (k : Key) : List (HashWrite π) :=
  .length k.length :: k.flatMap (IndexValue.hashWrites pattern)

/-! ## Numbers -/

namespace Binary64

theorem eq_of_toBits_eq {x y : Float} (h : x.toBits = y.toBits) : x = y := by
  obtain ⟨⟨bits, hx⟩⟩ := x
  obtain ⟨⟨bits', hy⟩⟩ := y
  have hbits : bits = bits' := h
  subst hbits
  rfl

/-- A number other than zero is known by its value. -/
theorem eq_of_valueKey_eq {x y : Float} (hx : magnitude x ≠ 0) (h : valueKey x = valueKey y) :
    x = y := by
  have hxbits := x.toBits.toNat_lt
  have hybits := y.toBits.toNat_lt
  apply eq_of_toBits_eq
  apply UInt64.toNat_inj.mp
  simp only [valueKey, isNegative, magnitude, decide_eq_true_eq] at h hx
  split at h <;> split at h <;> omega

/-- Zero is equal to an integer. -/
theorem magnitude_ne_zero_of_integral? {x : Float} (h : integral? x = none) :
    magnitude x ≠ 0 := by
  intro hzero
  have hfinite : isFinite x = true := by
    rw [isFinite, hzero]
    decide
  have hunits : units x = (0 : Int64).toInt * (unitsPerOne : Int) := by
    rw [units, hzero, unitsOfMagnitude_zero, Int64.toInt_zero, Int.zero_mul]
    exact ite_self 0
  rw [integral?_eq_some_iff.mpr ⟨hfinite, hunits⟩] at h
  cases h

/-- One pattern for whatever is no number, one for the zeros, and the bits of any other number. -/
def canonicalBits (x : Float) : UInt64 :=
  if isNaN x then 0x7FF8000000000000 else if magnitude x = 0 then 0 else x.toBits

theorem canonicalBits_of_isNaN {x : Float} (h : isNaN x = true) :
    canonicalBits x = 0x7FF8000000000000 := by
  rw [canonicalBits, if_pos h]

theorem canonicalBits_of_ne_zero {x : Float} (h : isNaN x = false) (hx : magnitude x ≠ 0) :
    canonicalBits x = x.toBits := by
  rw [canonicalBits, if_neg (Bool.eq_false_iff.mp h), if_neg hx]

theorem separatesNumbers_canonicalBits : SeparatesNumbers canonicalBits where
  notANumber x y hx hy := by rw [canonicalBits_of_isNaN hx, canonicalBits_of_isNaN hy]
  number x y hx hzerox hzeroy h := by
    rw [canonicalBits_of_ne_zero hx hzerox] at h
    cases hy : isNaN y with
    | true =>
      -- the bits of `x` would be those of something that is no number
      rw [canonicalBits_of_isNaN hy] at h
      have hnan : isNaN x = true := by
        rw [isNaN, magnitude, h]
        decide
      rw [hnan] at hx
      cases hx
    | false =>
      rw [canonicalBits_of_ne_zero hy hzeroy] at h
      exact eq_of_toBits_eq h

end Binary64

/-! ## Values -/

namespace IndexValue

variable {pattern : Float → π}

theorem hashWrites_of_int? {v : IndexValue} {n : Int64} (h : v.int? = some n) :
    v.hashWrites pattern = [.tag 0, .word n] := by
  cases v with
  | int m =>
    cases h
    rfl
  | float x =>
    have hx : Binary64.integral? x = some n := h
    rw [hashWrites, hx]
  | str s => cases h

theorem hashWrites_float {x : Float} (h : Binary64.integral? x = none) :
    (float x).hashWrites pattern = [.tag 1, .number (pattern x)] := by
  rw [hashWrites, h]

@[simp] theorem length_hashWrites (v : IndexValue) : (v.hashWrites pattern).length = 2 := by
  cases v with
  | int n => rfl
  | float x =>
    rw [hashWrites]
    split <;> rfl
  | str s => rfl

/-- Only what is equal to an integer writes what the integer does. -/
theorem hashWrites_eq_whole_iff {v : IndexValue} {n : Int64} :
    v.hashWrites pattern = [.tag 0, .word n] ↔ v.int? = some n := by
  cases hv : v.int? with
  | some m => simp [hashWrites_of_int? hv]
  | none =>
    cases v with
    | int m => cases hv
    | float x => simp [hashWrites_float hv]
    | str s => simp [hashWrites]

/-- Numbers that are equal to no integer have the same pattern when they are equal. -/
theorem pattern_eq_iff (hpattern : SeparatesNumbers pattern) {x y : Float}
    (hx : Binary64.integral? x = none) (hy : Binary64.integral? y = none) :
    pattern x = pattern y ↔ compare (float x) (float y) = .eq := by
  have hzerox := Binary64.magnitude_ne_zero_of_integral? hx
  have hzeroy := Binary64.magnitude_ne_zero_of_integral? hy
  rw [compare, Binary64.compare]
  cases hnanx : Binary64.isNaN x with
  | true =>
    cases hnany : Binary64.isNaN y with
    | true => exact iff_of_true (hpattern.notANumber x y hnanx hnany) rfl
    | false =>
      refine iff_of_false ?_ Ordering.noConfusion
      intro h
      rw [hpattern.number y x hnany hzeroy hzerox h.symm, hnanx] at hnany
      cases hnany
  | false =>
    cases hnany : Binary64.isNaN y with
    | true =>
      refine iff_of_false ?_ Ordering.noConfusion
      intro h
      rw [hpattern.number x y hnanx hzerox hzeroy h, hnany] at hnanx
      cases hnanx
    | false =>
      dsimp only
      rw [Std.compare_eq_iff_eq]
      constructor
      · intro h
        rw [hpattern.number x y hnanx hzerox hzeroy h]
      · intro h
        rw [Binary64.eq_of_valueKey_eq hzerox h]

/-- Values write the same exactly when they are equal. -/
theorem hashWrites_eq_iff (hpattern : SeparatesNumbers pattern) {v w : IndexValue} :
    v.hashWrites pattern = w.hashWrites pattern ↔ compare v w = .eq := by
  rw [← identity_eq_iff]
  cases hv : v.int? with
  | some n =>
    rw [hashWrites_of_int? hv, identity_of_int? hv, eq_comm, hashWrites_eq_whole_iff,
      ← identity_eq_whole_iff]
    exact eq_comm
  | none =>
    cases hw : w.int? with
    | some n =>
      rw [hashWrites_of_int? hw, identity_of_int? hw, hashWrites_eq_whole_iff,
        identity_eq_whole_iff]
    | none =>
      -- neither is equal to an integer, so only values of one kind can be equal
      cases v with
      | int m => cases hv
      | float x =>
        cases w with
        | int n => cases hw
        | float y =>
          rw [hashWrites_float hv, hashWrites_float hw, identity_eq_iff,
            ← pattern_eq_iff hpattern hv hw]
          simp
        | str t =>
          rw [hashWrites_float hv, identity_float hv, identity_str]
          simp [hashWrites]
      | str s =>
        cases w with
        | int n => cases hw
        | float y =>
          rw [hashWrites_float hw, identity_float hw, identity_str]
          simp [hashWrites]
        | str t => simp [hashWrites, identity_str]

end IndexValue

/-! ## Keys -/

/-- Keys write the same exactly when they are equal: each value writes two things, so nothing runs
from one value into the next. -/
theorem Key.hashWrites_eq_iff {pattern : Float → π} (hpattern : SeparatesNumbers pattern)
    {k k' : Key} : k.hashWrites pattern = k'.hashWrites pattern ↔ compare k k' = .eq := by
  rw [compare_eq_eq_iff, hashWrites, hashWrites, List.cons.injEq, HashWrite.length.injEq]
  induction k generalizing k' with
  | nil =>
    cases k' with
    | nil => simp
    | cons w k' => simp
  | cons v k ih =>
    cases k' with
    | nil => simp
    | cons w k' =>
      have hlength : (v.hashWrites pattern).length = (w.hashWrites pattern).length := by
        rw [IndexValue.length_hashWrites, IndexValue.length_hashWrites]
      rw [List.forall₂_cons, ← ih, ← IndexValue.hashWrites_eq_iff hpattern, List.flatMap_cons,
        List.flatMap_cons, List.length_cons, List.length_cons, Nat.add_right_cancel_iff]
      constructor
      · rintro ⟨hkeys, hwrites⟩
        obtain ⟨hv, hks⟩ := List.append_inj hwrites hlength
        exact ⟨hv, hkeys, hks⟩
      · rintro ⟨hv, hkeys, hks⟩
        exact ⟨hkeys, by rw [hv, hks]⟩

end AlgebraicModel
