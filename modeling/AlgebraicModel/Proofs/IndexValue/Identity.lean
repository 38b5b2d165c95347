import AlgebraicModel.IndexValue.Identity
import AlgebraicModel.Proofs.IndexValue.Order

/-!
# Identities stand for places

Two index values have the same identity exactly when they are equal in the order of index values
(`identity_eq_iff`), so a table keyed by identities finds what a search by comparison would find.
The same holds of keys (`Key.identity_eq_iff`), and the search for a repeated key reports one
exactly when two keys of the list are equal (`Key.firstRepeat?_eq_none_iff`).
-/

set_option autoImplicit false

namespace AlgebraicModel

namespace Identity

instance instTransCmp : Std.TransCmp compare :=
  inferInstanceAs (Std.TransCmp (compareLex _ _))

instance instLawfulEqCmp : Std.LawfulEqCmp compare where
  eq_of_compare := by
    intro p q h
    obtain ⟨s, w, t⟩ := p
    obtain ⟨s', w', t'⟩ := q
    simpa only [compare, compareLex_eq_eq, compareOn, Std.compare_eq_iff_eq, mk.injEq] using h

end Identity

namespace IndexValue

/-! ## Values -/

theorem identity_of_int? {v : IndexValue} {n : Int64} (h : v.int? = some n) :
    v.identity = ⟨0, n.toInt, ""⟩ := by
  simp [identity, h]

theorem identity_float {x : Float} (h : (float x).int? = none) : (float x).identity =
    ⟨1, if Binary64.isNaN x then Binary64.infinityMagnitude + 1 else Binary64.valueKey x, ""⟩ := by
  simp [identity, h]

theorem identity_str (s : String) : (str s).identity = ⟨2, 0, s⟩ := rfl

/-- Only what is equal to an integer has the identity of one. -/
theorem identity_eq_whole_iff {v : IndexValue} {n : Int64} :
    v.identity = ⟨0, n.toInt, ""⟩ ↔ v.int? = some n := by
  cases hv : v.int? with
  | some m => simp [identity_of_int? hv, Int64.toInt_inj]
  | none =>
    cases v with
    | int m => simp at hv
    | float x => simp [identity_float hv]
    | str s => simp [identity_str]

/-- Among numbers, what is no number has a mark of its own. -/
theorem valueKey_lt {x : Float} (h : Binary64.isNaN x = false) :
    Binary64.valueKey x < Binary64.infinityMagnitude + 1 := by
  have hmagnitude : Binary64.magnitude x ≤ Binary64.infinityMagnitude := by
    simpa [Binary64.isNaN] using h
  unfold Binary64.valueKey
  split <;> omega

/-- Numbers that are equal to no integer have the same identity when they are equal. -/
theorem identity_float_eq_iff {x y : Float} (hx : (float x).int? = none)
    (hy : (float y).int? = none) :
    (float x).identity = (float y).identity ↔ compare (float x) (float y) = .eq := by
  rw [identity_float hx, identity_float hy]
  simp only [compare, Binary64.compare, Identity.mk.injEq, true_and, and_true]
  cases hnx : Binary64.isNaN x with
  | true =>
    cases hny : Binary64.isNaN y with
    | true => simp
    | false =>
      -- the mark of what is no number is beyond the key of every number
      have hlt := valueKey_lt hny
      simp only [if_true, Bool.false_eq_true, if_false, reduceCtorEq, iff_false]
      omega
  | false =>
    cases hny : Binary64.isNaN y with
    | true =>
      have hlt := valueKey_lt hnx
      simp only [if_true, Bool.false_eq_true, if_false, reduceCtorEq, iff_false]
      omega
    | false => simp

/-- The identity of a value says where the value stands, and nothing else. -/
theorem identity_eq_iff {v w : IndexValue} : v.identity = w.identity ↔ compare v w = .eq := by
  cases hv : v.int? with
  | some n =>
    -- `v` is as good as the integer that it is equal to
    have hvn : compare v (int n) = .eq := compare_int_eq_eq_iff.mpr hv
    rw [identity_of_int? hv, eq_comm, identity_eq_whole_iff, ← compare_int_eq_eq_iff]
    constructor
    · intro h
      exact Std.TransCmp.eq_trans hvn (Std.OrientedCmp.eq_symm h)
    · intro h
      exact Std.TransCmp.eq_trans (Std.OrientedCmp.eq_symm h) hvn
  | none =>
    cases hw : w.int? with
    | some n =>
      have hwn : compare w (int n) = .eq := compare_int_eq_eq_iff.mpr hw
      rw [identity_of_int? hw, identity_eq_whole_iff, ← compare_int_eq_eq_iff]
      constructor
      · intro h
        exact Std.TransCmp.eq_trans h (Std.OrientedCmp.eq_symm hwn)
      · intro h
        exact Std.TransCmp.eq_trans h hwn
    | none =>
      -- neither is equal to an integer, so only values of one kind can be equal
      cases v with
      | int m => simp at hv
      | float x =>
        cases w with
        | int n => simp at hw
        | float y => exact identity_float_eq_iff hv hw
        | str t => simp [identity_float hv, identity_str, compare]
      | str s =>
        cases w with
        | int n => simp at hw
        | float y => simp [identity_float hw, identity_str, compare]
        | str t => simp [identity_str, compare]

end IndexValue

namespace Key

/-! ## Keys -/

theorem identity_eq_iff {k k' : Key} : k.identity = k'.identity ↔ compare k k' = .eq := by
  rw [compare_eq_eq_iff]
  induction k generalizing k' with
  | nil =>
    cases k' with
    | nil => simp [identity]
    | cons w k' => simp [identity]
  | cons v k ih =>
    cases k' with
    | nil => simp [identity]
    | cons w k' =>
      rw [List.forall₂_cons, ← ih, ← IndexValue.identity_eq_iff]
      simp [identity]

/-- No key of the list is among those seen, and no two keys of the list are equal. -/
theorem firstRepeatAfter?_eq_none_iff {seen : Seen} {ks : List Key} :
    firstRepeatAfter? seen ks = none ↔
      (∀ k ∈ ks, seen.contains k.identity = false) ∧
        ks.Pairwise (fun k k' => compare k k' ≠ .eq) := by
  induction ks generalizing seen with
  | nil => simp [firstRepeatAfter?]
  | cons k ks ih =>
    rw [firstRepeatAfter?, List.forall_mem_cons, List.pairwise_cons]
    cases hk : seen.contains k.identity with
    | true => simp
    | false =>
      -- among the seen ones once `k` is entered: `k` itself, and those from before
      have hinsert (k' : Key) : (seen.insert k.identity).contains k'.identity = false ↔
          compare k k' ≠ .eq ∧ seen.contains k'.identity = false := by
        rw [Std.TreeSet.contains_insert, Bool.or_eq_false_iff, beq_eq_false_iff_ne, ne_eq,
          Std.LawfulEqCmp.compare_eq_iff_eq, identity_eq_iff]
      rw [if_neg Bool.false_ne_true, ih]
      constructor
      · rintro ⟨hnew, hks⟩
        exact ⟨⟨rfl, fun k' hk' => ((hinsert k').mp (hnew k' hk')).2⟩,
          fun k' hk' => ((hinsert k').mp (hnew k' hk')).1, hks⟩
      · rintro ⟨⟨-, hseen⟩, hne, hks⟩
        exact ⟨fun k' hk' => (hinsert k').mpr ⟨hne k' hk', hseen k' hk'⟩, hks⟩

/-- A list of keys has no repetition exactly when no two of its keys are equal. -/
theorem firstRepeat?_eq_none_iff {ks : List Key} :
    firstRepeat? ks = none ↔ ks.Pairwise (fun k k' => compare k k' ≠ .eq) := by
  rw [firstRepeat?, firstRepeatAfter?_eq_none_iff]
  simp

end Key

end AlgebraicModel
