import AlgebraicModel.Proofs.Container.Contents

/-!
# Places and keys of an array

The places of an array and the keys that stand on its axes correspond one to one, in the order of
the axes (`Addresses`), for dense arrays and for arrays over axes (`row_major_addressing`). Turning
a place into its key divides by the strides and the lengths, which are positive as soon as there is
a place at all (`RowMajor.strides_bounds`, `RowMajor.dims_bounds`): an empty dimension makes strides
zero, but it also leaves nothing to turn into a key.
-/

set_option autoImplicit false

namespace AlgebraicModel

variable {α : Type}

/-! ## Strides -/

namespace RowMajor

variable {dims : List Nat}

theorem size_pos_of_cons {d : Nat} (h : 0 < size (d :: dims)) : 0 < d ∧ 0 < size dims := by
  rw [size_cons] at h
  exact ⟨Nat.pos_of_mul_pos_right h, Nat.pos_of_mul_pos_left h⟩

/-- In an array with elements no dimension is empty, and none is longer than the array. -/
theorem dims_bounds (h : 0 < size dims) : ∀ d ∈ dims, 0 < d ∧ d ≤ size dims := by
  induction dims with
  | nil => exact List.forall_mem_nil _
  | cons d dims ih =>
    obtain ⟨hd, hdims⟩ := size_pos_of_cons h
    refine List.forall_mem_cons.mpr ⟨⟨hd, Nat.le_mul_of_pos_right d hdims⟩, ?_⟩
    intro e he
    obtain ⟨hpos, hle⟩ := ih hdims e he
    exact ⟨hpos, hle.trans (Nat.le_mul_of_pos_left _ hd)⟩

/-- In an array with elements no stride is zero, and none leads further than the array. -/
theorem strides_bounds (h : 0 < size dims) : ∀ s ∈ strides dims, 0 < s ∧ s ≤ size dims := by
  induction dims with
  | nil => exact List.forall_mem_nil _
  | cons d dims ih =>
    obtain ⟨hd, hdims⟩ := size_pos_of_cons h
    refine List.forall_mem_cons.mpr ⟨⟨hdims, Nat.le_mul_of_pos_left _ hd⟩, ?_⟩
    intro s hs
    obtain ⟨hpos, hle⟩ := ih hdims s hs
    exact ⟨hpos, hle.trans (Nat.le_mul_of_pos_left _ hd)⟩

end RowMajor

/-! ## The order of the axes -/

/-- The first key comes before the second one in the order of the axes: at the first dimension at
which they differ its value stands earlier. -/
inductive AxisOrder : List (List IndexValue) → Key → Key → Prop
  | head {s : List IndexValue} {ss : List (List IndexValue)} {v w : IndexValue} {k k' : Key}
      (h : [v, w].Sublist s) : AxisOrder (s :: ss) (v :: k) (w :: k')
  | tail {s : List IndexValue} {ss : List (List IndexValue)} {v : IndexValue} {k k' : Key}
      (h : AxisOrder ss k k') : AxisOrder (s :: ss) (v :: k) (v :: k')

/-- The tuples of sets ascend in the order of the sets. -/
theorem pairwise_axisOrder_tuples (ss : List (List IndexValue)) :
    (tuples ss).Pairwise (AxisOrder ss) := by
  induction ss with
  | nil => exact List.pairwise_singleton _ _
  | cons s ss ih =>
    rw [tuples_cons, List.pairwise_flatMap]
    constructor
    · -- in the block of one value the rest of the key decides
      intro v _
      exact List.pairwise_map.mpr (ih.imp .tail)
    · refine List.pairwise_iff_forall_sublist.mpr ?_
      intro v w hvw k hk k' hk'
      obtain ⟨_, _, rfl⟩ := List.mem_map.mp hk
      obtain ⟨_, _, rfl⟩ := List.mem_map.mp hk'
      exact .head hvw

/-- Where the values of each axis ascend, the order of the axes is the order of keys. -/
theorem AxisOrder.compare_eq_lt {ss : List (List IndexValue)} {k k' : Key}
    (hss : ∀ s ∈ ss, s.Pairwise fun v w => IndexValue.compare v w = .lt) (h : AxisOrder ss k k') :
    Key.compare k k' = .lt := by
  induction h with
  | head hvw =>
    have hlt := List.pairwise_iff_forall_sublist.mp (hss _ List.mem_cons_self) hvw
    rw [Key.compare, List.compareLex_cons_cons, hlt]
    rfl
  | tail _ ih =>
    have hrest := ih (List.forall_mem_cons.mp hss).2
    rw [Key.compare] at hrest
    rw [Key.compare, List.compareLex_cons_cons, IndexValue.compare_self, hrest]
    rfl

/-! ## Places and keys -/

/-- The places of an array of the given size and the keys in range correspond one to one. -/
structure Addresses (dims : List Nat) (InRange : Key → Prop) (before : Key → Key → Prop)
    (offset? : Key → Option Nat) (keyAt : Nat → Key) (size : Nat) : Prop where
  /-- Where there is a place, nothing is divided by zero and nothing leads out of the array. -/
  divisors : 0 < size →
    (∀ s ∈ RowMajor.strides dims, 0 < s ∧ s ≤ size) ∧ ∀ d ∈ dims, 0 < d ∧ d ≤ size
  inRange_keyAt : ∀ i < size, InRange (keyAt i)
  /-- The key of a place is found there. -/
  offset?_keyAt : ∀ i < size, offset? (keyAt i) = some i
  /-- A key in range is the key of one place, however it is written. -/
  existsUnique : ∀ k, InRange k → ∃! i, i < size ∧ Key.compare k (keyAt i) = .eq
  /-- Later places have later keys. -/
  before_keyAt : ∀ i j, i < j → j < size → before (keyAt i) (keyAt j)
  /-- The keys out of range are rejected, and no others. -/
  rejected_iff : ∀ k, offset? k = none ↔ ¬ InRange k
  /-- No key leads out of the array. -/
  offset?_lt : ∀ k i, offset? k = some i → i < size

/-- A look-up that locates the tuples of sets, whose places have the tuples as keys, addresses the
sets row by row. -/
theorem addresses_of_locates {ss : List (List IndexValue)} {dims : List Nat}
    {InRange : Key → Prop} {before : Key → Key → Prop} {offset? : Key → Option Nat}
    {keyAt : Nat → Key} (hdims : ss.map List.length = dims)
    (hfind : Locates Key.compare offset? (tuples ss))
    (hkey : ∀ i k, (tuples ss)[i]? = some k → keyAt i = k)
    (hrange : ∀ k, (offset? k).isSome = true ↔ InRange k)
    (hbefore : ∀ k k', AxisOrder ss k k' → before k k') :
    Addresses dims InRange before offset? keyAt (RowMajor.size dims) := by
  have hlength : (tuples ss).length = RowMajor.size dims := by rw [length_tuples, hdims]
  have htuple (i : Nat) (hi : i < RowMajor.size dims) : (tuples ss)[i]? = some (keyAt i) := by
    have hget := List.getElem?_eq_getElem (hlength ▸ hi)
    rw [hget, hkey i _ hget]
  have hfound (i : Nat) (hi : i < RowMajor.size dims) : offset? (keyAt i) = some i :=
    (hfind _ _).mpr ⟨_, htuple i hi, Key.compare_self _⟩
  have hinside (k : Key) (i : Nat) (h : offset? k = some i) :
      i < RowMajor.size dims ∧ Key.compare k (keyAt i) = .eq := by
    obtain ⟨k', hk', hcompare⟩ := (hfind k i).mp h
    rw [hkey i k' hk', ← hlength]
    exact ⟨(List.getElem?_eq_some_iff.mp hk').1, hcompare⟩
  refine ⟨?_, ?_, hfound, ?_, ?_, ?_, fun k i h => (hinside k i h).1⟩
  · intro hpos
    exact ⟨RowMajor.strides_bounds hpos, RowMajor.dims_bounds hpos⟩
  · intro i hi
    rw [← hrange, hfound i hi]
    rfl
  · intro k hk
    obtain ⟨i, hi⟩ := Option.isSome_iff_exists.mp ((hrange k).mpr hk)
    refine ⟨i, hinside k i hi, ?_⟩
    -- another place with an equal key would be found as well
    rintro j ⟨hj, hcompare⟩
    have hj' : offset? k = some j := (hfind k j).mpr ⟨_, htuple j hj, hcompare⟩
    rw [hi] at hj'
    exact (Option.some.inj hj').symm
  · intro i j hij hj
    have hpairwise := List.pairwise_iff_getElem.mp (pairwise_axisOrder_tuples ss) i j
      (by omega) (by omega) hij
    rw [← hkey i _ (List.getElem?_eq_getElem _), ← hkey j _ (List.getElem?_eq_getElem _)]
      at hpairwise
    exact hbefore _ _ hpairwise
  · intro k
    rw [← hrange, Bool.not_eq_true, Option.isSome_eq_false_iff, Option.isNone_iff_eq_none]

/-- A key has positions exactly when each of its values is found. -/
theorem Key.isSome_positionsBy? {finds : List (IndexValue → Option Nat)} {k : Key} :
    (positionsBy? finds k).isSome = true ↔
      List.Forall₂ (fun find v => (find v).isSome = true) finds k := by
  induction finds generalizing k with
  | nil => cases k <;> simp [positionsBy?]
  | cons find finds ih =>
    cases k with
    | nil => simp [positionsBy?]
    | cons v k =>
      rw [List.forall₂_cons, ← ih, positionsBy?]
      cases find v <;> cases positionsBy? finds k <;> simp

theorem forall₂_congr_of_mem {β γ : Type} {R S : β → γ → Prop} {xs : List β} {ys : List γ}
    (h : ∀ x ∈ xs, ∀ y, R x y ↔ S x y) : List.Forall₂ R xs ys ↔ List.Forall₂ S xs ys := by
  induction xs generalizing ys with
  | nil => simp
  | cons x xs ih =>
    obtain ⟨hx, hxs⟩ := List.forall_mem_cons.mp h
    cases ys with
    | nil => simp
    | cons y ys => rw [List.forall₂_cons, List.forall₂_cons, hx, ih hxs]

namespace DenseArray

/-- The key has an integer from one to the length for each dimension, however it is written. -/
def HasKey (dims : List Nat) (k : Key) : Prop :=
  List.Forall₂ (fun (d : Nat) v => ∃ n : Int64, IndexValue.compare v (.int n) = .eq ∧
    1 ≤ n.toInt ∧ n.toInt ≤ d) dims k

theorem isSome_offset? (dims : List Nat) (k : Key) :
    (offset? dims k).isSome = true ↔ HasKey dims k := by
  rw [offset?, Option.isSome_map, positions?_eq_positionsBy?, Key.isSome_positionsBy?,
    List.forall₂_map_left_iff, HasKey]
  have hposition (d : Nat) (v : IndexValue) : (position? d v).isSome = true ↔
      ∃ n : Int64, IndexValue.compare v (.int n) = .eq ∧ 1 ≤ n.toInt ∧ n.toInt ≤ d := by
    simp only [Option.isSome_iff_exists, position?_eq_some_iff, IndexValue.compare_int_eq_eq_iff]
    constructor
    · rintro ⟨p, hp, n, hn, hword⟩
      exact ⟨n, hn, by omega, by omega⟩
    · rintro ⟨n, hn, hone, hle⟩
      exact ⟨(n.toInt - 1).toNat, by omega, n, hn, by omega⟩
  simp only [hposition]

/-- The numbers of a dense dimension ascend. -/
theorem pairwise_indexSet (n : Int64) :
    (indexSet n).Pairwise fun v w => IndexValue.compare v w = .lt := by
  rw [List.pairwise_iff_getElem]
  intro i j hi hj hij
  have hvi := getElem?_indexSet_eq_some_iff.mp (List.getElem?_eq_getElem hi)
  have hvj := getElem?_indexSet_eq_some_iff.mp (List.getElem?_eq_getElem hj)
  rw [hvi.2, hvj.2, IndexValue.compare, toInt_ofNat_succ hi, toInt_ofNat_succ hj]
  exact Std.compare_eq_lt.mpr (by omega)

/-- Without elements there is no key in range. -/
theorem not_hasKey {dims : List Nat} (h : RowMajor.size dims = 0) (k : Key) : ¬ HasKey dims k := by
  intro hk
  induction hk with
  | nil => cases h
  | cons hv _ ih =>
    obtain ⟨n, -, hone, hle⟩ := hv
    rcases Nat.mul_eq_zero.mp h with hzero | hzero
    · omega
    · exact ih hzero

/-- Lengths that are counted by words are those of index sets. -/
theorem exists_indexSets {dims : List Nat} (h : ∀ d ∈ dims, d < 2 ^ 63) :
    ∃ ns : List Int64, (ns.map indexSet).map List.length = dims := by
  refine ⟨dims.map Int64.ofNat, ?_⟩
  rw [List.map_map, List.map_map]
  refine (List.map_congr_left ?_).trans dims.map_id
  intro d hd
  have hword := Int64.toInt_ofNat_of_lt (h d hd)
  simp [length_indexSet, hword]

/-- A dense array addresses the keys of its dimensions, which are in the order of keys. -/
theorem addresses (a : DenseArray α)
    (hword : 0 < RowMajor.size a.dims → ∀ d ∈ a.dims, d < 2 ^ 63) :
    Addresses a.dims (HasKey a.dims) (fun k k' => Key.compare k k' = .lt) (offset? a.dims) a.keyAt
      (RowMajor.size a.dims) := by
  rcases Nat.eq_zero_or_pos (RowMajor.size a.dims) with hzero | hpos
  · -- there is no place, and no key is in range
    have hnone (k : Key) : offset? a.dims k = none := by
      rw [← Option.isNone_iff_eq_none, ← Option.isSome_eq_false_iff, ← Bool.not_eq_true,
        isSome_offset?]
      exact not_hasKey hzero k
    rw [hzero]
    refine ⟨fun h => absurd h (Nat.lt_irrefl 0), fun i hi => absurd hi (Nat.not_lt_zero i),
      fun i hi => absurd hi (Nat.not_lt_zero i), fun k hk => absurd hk (not_hasKey hzero k),
      fun i j _ hj => absurd hj (Nat.not_lt_zero j),
      fun k => iff_of_true (hnone k) (not_hasKey hzero k), fun k i hi => ?_⟩
    rw [hnone k] at hi
    cases hi
  · obtain ⟨ns, hns⟩ := exists_indexSets (hword hpos)
    obtain ⟨dims, data⟩ := a
    dsimp only at hns ⊢
    subst hns
    refine addresses_of_locates rfl (locates_key ns) ?_ (isSome_offset? _) ?_
    · intro i k hk
      exact Container.dense_keyAt hk data
    · intro k k' h
      refine h.compare_eq_lt ?_
      rintro s hs
      obtain ⟨n, -, rfl⟩ := List.mem_map.mp hs
      exact pairwise_indexSet n

end DenseArray

namespace AxisArray

/-- The key has a value that is equal to an element of the axis for each axis. -/
def HasKey (axes : List Axis) (k : Key) : Prop :=
  List.Forall₂ (fun a v => ∃ w ∈ a.elements, IndexValue.compare v w = .eq) axes k

/-- The axis is what its elements make, so that no two of them are equal. -/
def IsFormed (axes : List Axis) : Prop := ∀ a ∈ axes, Axis.ofList a.elements = .ok a

theorem IsFormed.forall₂ {axes : List Axis} (h : IsFormed axes) :
    List.Forall₂ (fun vs a => Axis.ofList vs = .ok a) (axes.map Axis.elements) axes :=
  List.forall₂_map_left_iff.mpr (List.forall₂_same.mpr h)

theorem isSome_offset? {axes : List Axis} (h : IsFormed axes) (k : Key) :
    (offset? axes k).isSome = true ↔ HasKey axes k := by
  rw [offset?, Option.isSome_map, positions?_eq_positionsBy?, Key.isSome_positionsBy?,
    List.forall₂_map_left_iff, HasKey]
  have hposition : ∀ a ∈ axes, ∀ v, (a.position? v).isSome = true ↔
      ∃ w ∈ a.elements, IndexValue.compare v w = .eq := by
    intro a ha v
    rw [Option.isSome_iff_exists]
    simp only [Axis.locates_position? (h a ha) v]
    constructor
    · rintro ⟨i, w, hw, hvw⟩
      exact ⟨w, List.mem_of_getElem? hw, hvw⟩
    · rintro ⟨w, hw, hvw⟩
      obtain ⟨i, hi⟩ := List.mem_iff_getElem?.mp hw
      exact ⟨i, w, hi, hvw⟩
  exact forall₂_congr_of_mem hposition

/-- An array over axes addresses the keys of its axes, which are in the order of the axes. -/
theorem addresses (a : AxisArray α) (h : IsFormed a.axes) :
    Addresses a.dims (HasKey a.axes) (AxisOrder (a.axes.map Axis.elements)) (offset? a.axes)
      a.keyAt (RowMajor.size a.dims) := by
  refine addresses_of_locates (List.map_map) (locates_key h.forall₂) ?_ (isSome_offset? h)
    fun _ _ h => h
  intro i k hk
  exact Container.axis_keyAt h.forall₂ hk a.data

end AxisArray

/-- Places and keys of an array correspond one to one in row-major order, whatever the number and
the lengths of its dimensions, and nothing is divided by zero on the way. An array whose data fill
its dimensions finds under the key of each place the element there, and does not look outside its
data for a key that it does not reject. The lengths of dimensions are words where there are
elements, since the data of an array in memory are not more, and an axis has no repetitions. -/
theorem row_major_addressing (a : DenseArray α) (b : AxisArray α)
    (ha : a.data.size = RowMajor.size a.dims) (hword : 0 < a.data.size → ∀ d ∈ a.dims, d < 2 ^ 63)
    (hb : b.data.size = RowMajor.size b.dims) (haxes : AxisArray.IsFormed b.axes) :
    (Addresses a.dims (DenseArray.HasKey a.dims) (fun k k' => Key.compare k k' = .lt)
        (DenseArray.offset? a.dims) a.keyAt a.data.size ∧
      (∀ k, a.get? k = (DenseArray.offset? a.dims k).bind fun i => a.data[i]?) ∧
      ∀ i (h : i < a.data.size), a.get? (a.keyAt i) = some a.data[i]) ∧
    Addresses b.dims (AxisArray.HasKey b.axes) (AxisOrder (b.axes.map Axis.elements))
        (AxisArray.offset? b.axes) b.keyAt b.data.size ∧
      (∀ k, b.get? k = (AxisArray.offset? b.axes k).bind fun i => b.data[i]?) ∧
      ∀ i (h : i < b.data.size), b.get? (b.keyAt i) = some b.data[i] := by
  have hdense := a.addresses (ha ▸ hword)
  have haxis := b.addresses haxes
  rw [← ha] at hdense
  rw [← hb] at haxis
  refine ⟨⟨hdense, a.get?_eq_bind, ?_⟩, haxis, b.get?_eq_bind, ?_⟩
  · intro i hi
    rw [a.get?_eq_bind, hdense.offset?_keyAt i hi]
    exact Array.getElem?_eq_getElem hi
  · intro i hi
    rw [b.get?_eq_bind, haxis.offset?_keyAt i hi]
    exact Array.getElem?_eq_getElem hi

/-- A dense array with six places, and an array with an empty axis, which has none: it rejects every
key before it would have to divide by the length of that axis. -/
theorem row_major_addressing_of_empty_axis :
    let a : DenseArray Nat := ⟨[2, 3], #[10, 11, 12, 13, 14, 15]⟩
    ∃ x y, Axis.ofList [.str "u", .str "v"] = .ok x ∧ Axis.ofList [] = .ok y ∧
      let b : AxisArray Nat := ⟨[x, y], #[]⟩
      a.get? (a.keyAt 5) = some 15 ∧ Key.compare (a.keyAt 2) (a.keyAt 3) = .lt ∧
        AxisArray.offset? b.axes [.str "u", .int 1] = none := by
  intro a
  obtain ⟨x, hx⟩ := Axis.exists_ofList_iff.mpr
    (show [IndexValue.str "u", .str "v"].Pairwise fun v w => IndexValue.compare v w ≠ .eq by
      decide +kernel)
  obtain ⟨y, hy⟩ := Axis.exists_ofList_iff.mpr
    (List.Pairwise.nil (R := fun v w => IndexValue.compare v w ≠ .eq))
  refine ⟨x, y, hx, hy, ?_⟩
  intro b
  have hword : 0 < a.data.size → ∀ d ∈ a.dims, d < 2 ^ 63 := by decide
  have hsize : b.data.size = RowMajor.size b.dims := by
    change 0 = x.elements.length * (y.elements.length * 1)
    rw [Axis.elements_of_ofList hy]
    rfl
  have haxes : AxisArray.IsFormed b.axes := by
    refine List.forall_mem_cons.mpr ⟨?_, List.forall_mem_singleton.mpr ?_⟩
    · rw [Axis.elements_of_ofList hx, hx]
    · rw [Axis.elements_of_ofList hy, hy]
  obtain ⟨⟨hdense, -, hget⟩, haxis, -, -⟩ := row_major_addressing a b rfl hword hsize haxes
  refine ⟨hget 5 (by decide), hdense.before_keyAt 2 3 (by decide) (by decide), ?_⟩
  rw [haxis.rejected_iff]
  -- no value is equal to an element of the empty axis
  intro hkey
  obtain ⟨-, hrest⟩ := List.forall₂_cons.mp hkey
  obtain ⟨⟨w, hw, -⟩, -⟩ := List.forall₂_cons.mp hrest
  rw [Axis.elements_of_ofList hy] at hw
  cases hw

end AlgebraicModel
