import AlgebraicModel.Proofs.Container.Lookup
import Mathlib.Data.List.Perm.Subperm

/-!
# The contents of a container

`Container.Stores` says that a container holds a list of entries and nothing else, whatever way its
user looks at it: by number, by key or in sequence. Each representation stores the entries that it
is made from. Arrays owe this to their look-up functions, which locate the keys
(`stores_of_locates`), and maps to their keys being different (`stores_map`).
-/

set_option autoImplicit false

namespace AlgebraicModel

variable {α : Type}

namespace Container

/-- The sequence of a container is that of the entries, except that a map has them in ascending
order of their keys. -/
def Lists : Container α → List (Key × α) → Prop
  | map m, entries =>
    m.toList.Perm entries ∧ m.toList.Pairwise fun x y => Key.compare x.1 y.1 = .lt
  | c, entries => c.toList = entries

/-- The container holds the entries, which have different keys, and nothing else. -/
structure Stores (c : Container α) (entries : List (Key × α)) : Prop where
  distinct : entries.Pairwise fun x y => Key.compare x.1 y.1 ≠ .eq
  size : c.size = entries.length
  /-- Any key that is equal to the key of an entry finds the entry, however it is written. -/
  found : ∀ x ∈ entries, ∀ k, Key.compare k x.1 = .eq → c.get? k = some x.2
  /-- Any other key finds nothing. -/
  missed : ∀ k, (∀ x ∈ entries, Key.compare k x.1 ≠ .eq) → c.get? k = none
  listed : c.Lists entries

/-- Entries have different keys when the keys are different. -/
theorem pairwise_zip {ks : List Key} {es : List α} (hlength : ks.length = es.length)
    (hks : ks.Pairwise fun k k' => Key.compare k k' ≠ .eq) :
    (ks.zip es).Pairwise fun x y => Key.compare x.1 y.1 ≠ .eq := by
  have hkeys : ((ks.zip es).map Prod.fst).Pairwise fun k k' => Key.compare k k' ≠ .eq := by
    rw [List.map_fst_zip (by omega)]
    exact hks
  exact List.pairwise_map.mp hkeys

/-- What is found is what the function locates, at the same place of the elements. -/
theorem stores_of_locates {c : Container α} {ks : List Key} {es : List α}
    {find : Key → Option Nat} (hfind : Locates Key.compare find ks) (hlength : ks.length = es.length)
    (hget : ∀ k, c.get? k = (find k).bind fun i => es[i]?) (hsize : c.size = es.length)
    (hlists : c.Lists (ks.zip es)) : c.Stores (ks.zip es) where
  distinct := pairwise_zip hlength hfind.pairwise
  size := by rw [hsize, List.length_zip]; omega
  found := by
    intro x hx k hk
    obtain ⟨i, hi⟩ := List.mem_iff_getElem?.mp hx
    obtain ⟨hki, hei⟩ := List.getElem?_zip_eq_some.mp hi
    rw [hget, (hfind k i).mpr ⟨x.1, hki, hk⟩, Option.bind_some, hei]
  missed := by
    intro k hk
    rw [hget]
    cases hi : find k with
    | none => rfl
    | some i =>
      -- a found place would be that of an entry with an equal key
      obtain ⟨k', hk', heq⟩ := (hfind k i).mp hi
      have hlt := (List.getElem?_eq_some_iff.mp hk').1
      have hei := List.getElem?_eq_getElem (l := es) (i := i) (by omega)
      have hentry : (ks.zip es)[i]? = some (k', es[i]) :=
        List.getElem?_zip_eq_some.mpr ⟨hk', hei⟩
      exact absurd heq (hk _ (List.mem_of_getElem? hentry))
  listed := hlists

/-- Elements with the keys of their places are the entries in order. -/
theorem map_zipIdx_eq_zip {ks : List Key} {es : List α} {keyAt : Nat → Key}
    (hlength : ks.length = es.length) (hkey : ∀ i k, ks[i]? = some k → keyAt i = k) :
    (es.zipIdx.map fun (x, i) => (keyAt i, x)) = ks.zip es := by
  apply List.ext_getElem?
  intro i
  rw [List.getElem?_map, List.getElem?_zipIdx]
  by_cases hi : i < es.length
  · -- at a place of both lists, which have the same length
    have hki : i < ks.length := by omega
    have hentry : (ks.zip es)[i]? = some (ks[i], es[i]) :=
      List.getElem?_zip_eq_some.mpr
        ⟨List.getElem?_eq_getElem hki, List.getElem?_eq_getElem hi⟩
    rw [List.getElem?_eq_getElem hi, hentry]
    simp [hkey i _ (List.getElem?_eq_getElem hki)]
  · rw [List.getElem?_eq_none (by omega), List.getElem?_eq_none (by rw [List.length_zip]; omega)]
    rfl

/-- A key and an element at the same place are found together. -/
theorem Stores.get?_of_getElem? {c : Container α} {ks : List Key} {es : List α}
    (h : c.Stores (ks.zip es)) {i : Nat} {k : Key} {a : α} (hk : ks[i]? = some k)
    (ha : es[i]? = some a) {key : Key} (hkey : Key.compare key k = .eq) : c.get? key = some a := by
  have hentry : (ks.zip es)[i]? = some (k, a) := List.getElem?_zip_eq_some.mpr ⟨hk, ha⟩
  exact h.found _ (List.mem_of_getElem? hentry) key hkey

/-- Containers that store the same entries find the same elements. -/
theorem Stores.get?_eq {c c' : Container α} {entries : List (Key × α)} (h : c.Stores entries)
    (h' : c'.Stores entries) (k : Key) : c.get? k = c'.get? k := by
  by_cases hk : ∃ x ∈ entries, Key.compare k x.1 = .eq
  · obtain ⟨x, hx, hkx⟩ := hk
    rw [h.found x hx k hkx, h'.found x hx k hkx]
  · have hmiss : ∀ x ∈ entries, Key.compare k x.1 ≠ .eq := fun x hx hkx => hk ⟨x, hx, hkx⟩
    rw [h.missed k hmiss, h'.missed k hmiss]

/-! ## The four representations -/

theorem stores_scalar (a : α) : (scalar a).Stores [([], a)] where
  distinct := List.pairwise_singleton _ _
  size := rfl
  found := by
    intro x hx k hk
    rw [List.mem_singleton] at hx
    subst hx
    rw [List.length_eq_zero_iff.mp (Key.length_eq_of_compare_eq hk)]
    rfl
  missed := by
    intro k hk
    cases k with
    | nil => exact absurd (Key.compare_self []) (hk _ List.mem_cons_self)
    | cons v k => rfl
  listed := rfl

/-- The elements of dense dimensions are their positions counted from one. -/
theorem map_positions_of_zipWith {ns : List Int64} {ps : List Nat} {k : Key}
    (hlength : ps.length = ns.length)
    (h : List.zipWith (fun s p => s[p]?) (ns.map DenseArray.indexSet) ps = k.map some) :
    (ps.map fun p => IndexValue.int (Int64.ofNat (p + 1))) = k := by
  induction ns generalizing ps k with
  | nil =>
    obtain rfl := List.length_eq_zero_iff.mp hlength
    simpa using h
  | cons n ns ih =>
    cases ps with
    | nil => cases hlength
    | cons p ps =>
      cases k with
      | nil => cases h
      | cons v k =>
        simp only [List.map_cons, List.zipWith_cons_cons, List.cons.injEq] at h
        obtain ⟨-, rfl⟩ := DenseArray.getElem?_indexSet_eq_some_iff.mp h.1
        rw [List.map_cons, ih (Nat.succ.inj hlength) h.2]

/-- The key of a place of a dense array is the tuple at that place. -/
theorem dense_keyAt {ns : List Int64} {i : Nat} {k : Key}
    (h : (tuples (ns.map DenseArray.indexSet))[i]? = some k) (data : Array α) :
    (DenseArray.mk ((ns.map DenseArray.indexSet).map List.length) data).keyAt i = k :=
  map_positions_of_zipWith (by simp) (zipWith_positions h)

theorem stores_dense (ns : List Int64) {es : List α}
    (hlength : (tuples (ns.map DenseArray.indexSet)).length = es.length) :
    (dense ⟨(ns.map DenseArray.indexSet).map List.length, es.toArray⟩).Stores
      ((tuples (ns.map DenseArray.indexSet)).zip es) := by
  refine stores_of_locates (DenseArray.locates_key ns) hlength ?_ rfl ?_
  · intro k
    simp [get?, DenseArray.get?_eq_bind]
  · exact map_zipIdx_eq_zip hlength fun i k h => dense_keyAt h _

/-- The key of a place of an array over axes is the tuple at that place. -/
theorem axis_keyAt {sets : List (List IndexValue)} {axes : List Axis}
    (haxes : List.Forall₂ (fun vs a => Axis.ofList vs = .ok a) sets axes) {i : Nat} {k : Key}
    (h : (tuples sets)[i]? = some k) (data : Array α) : (AxisArray.mk axes data).keyAt i = k := by
  have helements := AxisArray.elements_of_ofLists haxes
  have hdims : axes.map Axis.size = sets.map List.length := by
    rw [← helements, List.map_map]
    rfl
  -- the array reads its key off the axes, which have the elements of the sets
  have hvalues := zipWith_positions h
  rw [← hdims, ← helements, List.zipWith_map_left] at hvalues
  rw [AxisArray.keyAt, AxisArray.dims, hvalues]
  simp

theorem stores_axis {sets : List (List IndexValue)} {axes : List Axis}
    (haxes : List.Forall₂ (fun vs a => Axis.ofList vs = .ok a) sets axes) {es : List α}
    (hlength : (tuples sets).length = es.length) :
    (axis ⟨axes, es.toArray⟩).Stores ((tuples sets).zip es) := by
  refine stores_of_locates (AxisArray.locates_key haxes) hlength ?_ rfl ?_
  · intro k
    simp [get?, AxisArray.get?_eq_bind]
  · exact map_zipIdx_eq_zip hlength fun i k h => axis_keyAt haxes h _

/-- A map made from entries with different keys has these entries. -/
theorem toList_ofList_perm {entries : List (Key × α)}
    (h : entries.Pairwise fun x y => Key.compare x.1 y.1 ≠ .eq) :
    (Std.TreeMap.ofList entries Key.compare).toList.Perm entries := by
  have hnodup : entries.Nodup := by
    refine h.imp ?_
    rintro x y hne rfl
    exact hne (Key.compare_self x.1)
  have hsubset : entries ⊆ (Std.TreeMap.ofList entries Key.compare).toList := by
    rintro ⟨k, a⟩ hx
    rw [Std.TreeMap.mem_toList_iff_getKey?_eq_some_and_getElem?_eq_some]
    exact ⟨Std.TreeMap.getKey?_ofList_of_mem (Key.compare_self k) h (List.mem_map_of_mem hx),
      Std.TreeMap.getElem?_ofList_of_mem (Key.compare_self k) h hx⟩
  -- every entry is in the map, and the map has no more entries than there are
  refine ((List.subperm_of_subset hnodup hsubset).perm_of_length_le ?_).symm
  rw [Std.TreeMap.length_toList, Std.TreeMap.size_ofList h]

theorem stores_map {ks : List Key} {es : List α}
    (hks : ks.Pairwise fun k k' => Key.compare k k' ≠ .eq) (hlength : ks.length = es.length) :
    (map (.ofList (ks.zip es) Key.compare)).Stores (ks.zip es) where
  distinct := pairwise_zip hlength hks
  size := Std.TreeMap.size_ofList (pairwise_zip hlength hks)
  found := by
    intro x hx k hk
    exact Std.TreeMap.getElem?_ofList_of_mem (Std.OrientedCmp.eq_symm hk)
      (pairwise_zip hlength hks) hx
  missed := by
    intro k hk
    cases ha : (Std.TreeMap.ofList (ks.zip es) Key.compare)[k]? with
    | none => exact ha
    | some a =>
      obtain ⟨k', heq, hmem⟩ :=
        Std.TreeMap.getElem?_eq_some_iff_exists_compare_eq_eq_and_mem_toList.mp ha
      have hentry := (toList_ofList_perm (pairwise_zip hlength hks)).mem_iff.mp hmem
      exact absurd heq (hk _ hentry)
  listed := ⟨toList_ofList_perm (pairwise_zip hlength hks), Std.TreeMap.ordered_keys_toList⟩

/-! ## Values -/

theorem values_eq_map_toList (m : KeyMap α) : m.values = m.toList.map Prod.snd := by
  have hfold : m.values = m.foldr (fun _ a as => a :: as) [] := rfl
  rw [hfold, Std.TreeMap.foldr_eq_foldr_toList, List.map_eq_foldr]

/-- The values of a container are those of its sequence. -/
theorem values_eq (c : Container α) : c.values = c.toList.map Prod.snd := by
  cases c with
  | scalar a => rfl
  | dense a => simp [values, toList, Function.comp_def]
  | axis a => simp [values, toList, Function.comp_def]
  | map m => exact values_eq_map_toList m

/-- The values of a container are the stored elements, in the order of its own. -/
theorem Stores.values_perm {c : Container α} {entries : List (Key × α)} (h : c.Stores entries) :
    c.values.Perm (entries.map Prod.snd) := by
  have hlisted := h.listed
  rw [values_eq]
  cases c with
  | map m => exact hlisted.1.map Prod.snd
  | scalar a => exact .of_eq (congrArg (List.map Prod.snd) hlisted)
  | dense a => exact .of_eq (congrArg (List.map Prod.snd) hlisted)
  | axis a => exact .of_eq (congrArg (List.map Prod.snd) hlisted)

theorem getElem?_insertMany {m : KeyMap α} {entries : List (Key × α)} {k : Key} {a : α}
    (h : (m.insertMany entries)[k]? = some a) : m[k]? = some a ∨ ∃ x ∈ entries, x.2 = a := by
  induction entries generalizing m with
  | nil =>
    rw [Std.TreeMap.insertMany_nil] at h
    exact .inl h
  | cons x entries ih =>
    rw [Std.TreeMap.insertMany_cons] at h
    rcases ih h with hinsert | ⟨y, hy, rfl⟩
    · -- the key finds the entry that was just put in, or what was there before
      rw [Std.TreeMap.getElem?_insert] at hinsert
      split at hinsert
      · exact .inr ⟨x, List.mem_cons_self, Option.some.inj hinsert⟩
      · exact .inl hinsert
    · exact .inr ⟨y, List.mem_cons_of_mem x hy, rfl⟩

/-- The values of a map are values that were put in. -/
theorem mem_of_mem_values_ofList {ks : List Key} {es : List α} {a : α}
    (h : a ∈ (Std.TreeMap.ofList (ks.zip es) Key.compare).values) : a ∈ es := by
  rw [values_eq_map_toList] at h
  obtain ⟨⟨k, a⟩, hmem, rfl⟩ := List.mem_map.1 h
  rw [Std.TreeMap.mem_toList_iff_getKey?_eq_some_and_getElem?_eq_some,
    Std.TreeMap.ofList_eq_insertMany_empty] at hmem
  rcases getElem?_insertMany hmem.2 with hempty | ⟨x, hx, rfl⟩
  · simp at hempty
  · exact (List.of_mem_zip hx).2

end Container

end AlgebraicModel
