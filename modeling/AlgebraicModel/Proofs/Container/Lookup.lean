import AlgebraicModel.Proofs.Container.RowMajor
import AlgebraicModel.Proofs.IndexValue.Identity
import AlgebraicModel.Proofs.Outcome

/-!
# Look-up along one dimension

A dense dimension and an axis find the elements of their index set, in the sense of `Locates`: the
arithmetic on `1..N` (`DenseArray.locates_position?`) and the table of an axis
(`Axis.locates_position?`) both give the place of the element that is equal to the value asked for.
So look-up in an array is look-up of its tuples (`DenseArray.locates_key`, `AxisArray.locates_key`).
-/

set_option autoImplicit false

namespace AlgebraicModel

/-! ## Ranges -/

namespace Word

theorem length_interval (lo hi : Int64) :
    (interval lo hi).length = (hi.toInt + 1 - lo.toInt).toNat := by
  simp [interval]

theorem getElem?_interval {lo hi : Int64} {p : Nat} (h : p < (interval lo hi).length) :
    (interval lo hi)[p]? = some (Int64.ofInt (lo.toInt + p)) := by
  rw [length_interval] at h
  simp [interval, List.getElem?_range h]

end Word

namespace DenseArray

/-- The index set of a dense dimension. -/
def indexSet (n : Int64) : List IndexValue := (Word.interval 1 n).map .int

theorem length_indexSet (n : Int64) : (indexSet n).length = n.toInt.toNat := by
  rw [indexSet, List.length_map, Word.length_interval]
  congr 1
  exact Int.add_sub_cancel _ _

/-- The element at a place counted from zero is the number of the place counted from one. -/
theorem getElem?_indexSet_eq_some_iff {n : Int64} {p : Nat} {v : IndexValue} :
    (indexSet n)[p]? = some v ↔ p < (indexSet n).length ∧ v = .int (Int64.ofNat (p + 1)) := by
  have hword : Int64.ofInt ((1 : Int64).toInt + p) = Int64.ofNat (p + 1) := by
    have hone : (1 : Int64).toInt + p = ((p + 1 : Nat) : Int) := by
      rw [show (1 : Int64).toInt = 1 from rfl]
      omega
    rw [hone, Int64.ofInt_eq_ofNat]
  by_cases hp : p < (Word.interval 1 n).length
  · rw [indexSet, List.getElem?_map, Word.getElem?_interval hp, hword, List.length_map]
    simp [hp, eq_comm]
  · rw [indexSet, List.getElem?_map, List.getElem?_eq_none (by omega), List.length_map]
    simp [hp]

theorem position?_eq_some_iff {dim : Nat} {v : IndexValue} {p : Nat} :
    position? dim v = some p ↔ p < dim ∧ ∃ n, v.int? = some n ∧ n.toInt = p + 1 := by
  simp only [position?, Option.bind_eq_bind, Option.bind_eq_some_iff]
  constructor
  · rintro ⟨n, hn, hp⟩
    split at hp
    · cases hp
      exact ⟨by omega, n, hn, by omega⟩
    · cases hp
  · rintro ⟨hp, n, hn, hword⟩
    refine ⟨n, hn, ?_⟩
    rw [if_pos (by omega), hword]
    simp

theorem toInt_ofNat_succ {n : Int64} {p : Nat} (h : p < (indexSet n).length) :
    (Int64.ofNat (p + 1)).toInt = p + 1 := by
  have hn := n.toInt_lt
  rw [length_indexSet] at h
  rw [Int64.toInt_ofNat_of_lt (by omega), Int.natCast_add, Int.natCast_one]

/-- The arithmetic of a dense dimension finds the elements of `1..n`. -/
theorem locates_position? (n : Int64) :
    Locates IndexValue.compare (position? (indexSet n).length) (indexSet n) := by
  intro v p
  rw [position?_eq_some_iff]
  constructor
  · rintro ⟨hp, m, hm, hword⟩
    have hmp : m = Int64.ofNat (p + 1) := by
      rw [← Int64.toInt_inj, hword, toInt_ofNat_succ hp]
    refine ⟨_, getElem?_indexSet_eq_some_iff.mpr ⟨hp, rfl⟩, ?_⟩
    rw [IndexValue.compare_int_eq_eq_iff, hm, hmp]
  · rintro ⟨w, hw, hvw⟩
    obtain ⟨hp, rfl⟩ := getElem?_indexSet_eq_some_iff.mp hw
    exact ⟨hp, _, IndexValue.compare_int_eq_eq_iff.mp hvw, toInt_ofNat_succ hp⟩

theorem positions?_eq_positionsBy? (dims : List Nat) (k : Key) :
    positions? dims k = Key.positionsBy? (dims.map position?) k := by
  induction dims generalizing k with
  | nil => cases k <;> rfl
  | cons d dims ih =>
    cases k with
    | nil => rfl
    | cons v k => simp only [positions?, List.map_cons, Key.positionsBy?, ih]

/-- The place at which a dense array looks for a key. -/
def offset? (dims : List Nat) (k : Key) : Option Nat :=
  (positions? dims k).map (RowMajor.offset dims)

theorem get?_eq_bind {α : Type} (a : DenseArray α) (k : Key) :
    a.get? k = (offset? a.dims k).bind fun i => a.data[i]? := by
  rw [get?, offset?, Option.bind_map]
  rfl

/-- A dense array finds the tuples of its index sets. -/
theorem locates_key (ns : List Int64) :
    Locates Key.compare (offset? ((ns.map indexSet).map List.length))
      (tuples (ns.map indexSet)) := by
  have hfinds : List.Forall₂ (Locates IndexValue.compare)
      (((ns.map indexSet).map List.length).map position?) (ns.map indexSet) := by
    rw [List.map_map, List.map_map, List.forall₂_map_left_iff, List.forall₂_map_right_iff]
    exact List.forall₂_same.mpr fun n _ => locates_position? n
  have hkeys := locates_tuples hfinds
  intro k i
  rw [offset?, positions?_eq_positionsBy?]
  exact hkeys k i

end DenseArray

namespace Axis

/-! ## Axes -/

/-- A table finds what it found before and the entered values, from their first position on. -/
theorem getElem?_tabulate {table table' : PositionTable} {i : Nat} {vs : List IndexValue}
    (h : tabulate table i vs = .ok table') (id : Identity) (p : Nat) :
    table'[id]? = some p ↔
      table[id]? = some p ∨ ∃ j v, vs[j]? = some v ∧ v.identity = id ∧ p = i + j := by
  induction vs generalizing table i with
  | nil =>
    cases h
    simp
  | cons v vs ih =>
    rw [tabulate] at h
    split at h
    · cases h
    · rename_i hnew
      -- entering `v` replaces no earlier position
      have hnone : table[v.identity]? = none :=
        Std.TreeMap.getElem?_eq_none_of_contains_eq_false (Bool.eq_false_iff.mpr hnew)
      rw [ih h, Std.TreeMap.getElem?_insert]
      constructor
      · rintro (hp | ⟨j, w, hw, hid, rfl⟩)
        · split at hp
          · rename_i hid
            cases hp
            exact .inr ⟨0, v, rfl, Std.LawfulEqCmp.eq_of_compare hid, rfl⟩
          · exact .inl hp
        · exact .inr ⟨j + 1, w, hw, hid, by omega⟩
      · rintro (hp | ⟨j, w, hw, hid, rfl⟩)
        · -- found before, so it is not `v`
          refine .inl ?_
          rw [if_neg, hp]
          intro hid
          rw [Std.LawfulEqCmp.eq_of_compare hid] at hnone
          rw [hnone] at hp
          cases hp
        · cases j with
          | zero =>
            cases hw
            rw [hid, if_pos Std.ReflCmp.compare_self]
            exact .inl rfl
          | succ j => exact .inr ⟨j, w, hw, hid, by omega⟩

theorem elements_of_ofList {vs : List IndexValue} {a : Axis} (h : ofList vs = .ok a) :
    a.elements = vs := by
  obtain ⟨table, -, rfl⟩ := Outcome.map_eq_ok_iff.mp h
  rfl

/-- The table of an axis finds its elements. -/
theorem locates_position? {vs : List IndexValue} {a : Axis} (h : ofList vs = .ok a) :
    Locates IndexValue.compare a.position? vs := by
  obtain ⟨table, htable, rfl⟩ := Outcome.map_eq_ok_iff.mp h
  intro v p
  rw [position?, getElem?_tabulate htable]
  constructor
  · rintro (hp | ⟨j, w, hw, hid, rfl⟩)
    · simp at hp
    · rw [Nat.zero_add]
      exact ⟨w, hw, IndexValue.identity_eq_iff.mp hid.symm⟩
  · rintro ⟨w, hw, hvw⟩
    exact .inr ⟨p, w, hw, (IndexValue.identity_eq_iff.mpr hvw).symm, (Nat.zero_add p).symm⟩

/-- Values can be entered when they are new to the table and to each other. -/
theorem exists_tabulate {table : PositionTable} {i : Nat} {vs : List IndexValue}
    (hnew : ∀ v ∈ vs, table.contains v.identity = false)
    (hvs : vs.Pairwise (fun v w => IndexValue.compare v w ≠ .eq)) :
    ∃ table', tabulate table i vs = .ok table' := by
  induction vs generalizing table i with
  | nil => exact ⟨table, rfl⟩
  | cons v vs ih =>
    obtain ⟨hv, hvs⟩ := List.pairwise_cons.mp hvs
    rw [tabulate, if_neg (Bool.eq_false_iff.mp (hnew v List.mem_cons_self))]
    refine ih ?_ hvs
    intro w hw
    -- entering `v` leaves the later values new
    have hne : v.identity ≠ w.identity := fun h => hv w hw (IndexValue.identity_eq_iff.mp h)
    rw [Std.TreeMap.contains_insert, hnew w (List.mem_cons_of_mem v hw), Bool.or_false,
      beq_eq_false_iff_ne, ne_eq, Std.LawfulEqCmp.compare_eq_iff_eq]
    exact hne

/-- A list has an axis exactly when no two of its values are equal. -/
theorem exists_ofList_iff {vs : List IndexValue} :
    (∃ a, ofList vs = .ok a) ↔ vs.Pairwise (fun v w => IndexValue.compare v w ≠ .eq) := by
  constructor
  · rintro ⟨a, ha⟩
    exact (locates_position? ha).pairwise
  · intro hvs
    have hempty : ∀ v ∈ vs, (∅ : PositionTable).contains v.identity = false := by simp
    obtain ⟨table, htable⟩ := exists_tabulate hempty hvs
    exact ⟨⟨vs, table⟩, by rw [ofList, htable]; rfl⟩

end Axis

namespace AxisArray

theorem positions?_eq_positionsBy? (axes : List Axis) (k : Key) :
    positions? axes k = Key.positionsBy? (axes.map Axis.position?) k := by
  induction axes generalizing k with
  | nil => cases k <;> rfl
  | cons a axes ih =>
    cases k with
    | nil => rfl
    | cons v k => simp only [positions?, List.map_cons, Key.positionsBy?, ih]

/-- The place at which an array over axes looks for a key. -/
def offset? (axes : List Axis) (k : Key) : Option Nat :=
  (positions? axes k).map (RowMajor.offset (axes.map Axis.size))

theorem get?_eq_bind {α : Type} (a : AxisArray α) (k : Key) :
    a.get? k = (offset? a.axes k).bind fun i => a.data[i]? := by
  rw [get?, offset?, Option.bind_map]
  rfl

theorem elements_of_ofLists {sets : List (List IndexValue)} {axes : List Axis}
    (h : List.Forall₂ (fun vs a => Axis.ofList vs = .ok a) sets axes) :
    axes.map Axis.elements = sets := by
  induction h with
  | nil => rfl
  | cons hvs _ ih => rw [List.map_cons, Axis.elements_of_ofList hvs, ih]

/-- An array over axes finds the tuples of its index sets. -/
theorem locates_key {sets : List (List IndexValue)} {axes : List Axis}
    (h : List.Forall₂ (fun vs a => Axis.ofList vs = .ok a) sets axes) :
    Locates Key.compare (offset? axes) (tuples sets) := by
  have hfinds : List.Forall₂ (Locates IndexValue.compare) (axes.map Axis.position?) sets := by
    rw [List.forall₂_map_left_iff]
    exact h.flip.imp fun _ _ hvs => Axis.locates_position? hvs
  have hdims : axes.map Axis.size = sets.map List.length := by
    rw [← elements_of_ofLists h, List.map_map]
    rfl
  have hkeys := locates_tuples hfinds
  intro k i
  rw [offset?, positions?_eq_positionsBy?, hdims]
  exact hkeys k i

end AxisArray

end AlgebraicModel
