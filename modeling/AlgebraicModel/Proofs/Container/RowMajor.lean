import AlgebraicModel.Container.Basic
import AlgebraicModel.Population.Keys
import AlgebraicModel.Proofs.IndexValue.Order

/-!
# Tuples stand in row-major order

The keys of an array are the tuples of its index sets, the last index varying fastest. This is the
order of row-major storage: a tuple with elements at given positions stands at their offset
(`getElem?_tuples_cons`), and the tuple at a place of the sequence has its elements at the positions
of that place (`zipWith_positions`).

A look-up function `Locates` the elements of a list when it finds exactly the places that hold an
equal element. Functions that locate the elements of each set locate the tuples
(`locates_tuples`), whatever the number of sets and also when some of them are empty.
-/

set_option autoImplicit false

namespace AlgebraicModel

/-! ## Blocks -/

/-- In a list of blocks of equal length, a place is a block and a place inside it. -/
theorem getElem?_flatMap_block {β γ : Type} {f : β → List γ} {n : Nat}
    (hf : ∀ b, (f b).length = n) (s : List β) (p : Nat) {o : Nat} (ho : o < n) :
    (s.flatMap f)[p * n + o]? = s[p]?.bind fun b => (f b)[o]? := by
  induction s generalizing p with
  | nil => simp
  | cons b s ih =>
    rw [List.flatMap_cons]
    cases p with
    | zero =>
      -- a place of the first block
      rw [Nat.zero_mul, Nat.zero_add, List.getElem?_append_left (by rw [hf]; exact ho)]
      simp
    | succ p =>
      -- a place behind the first block, which is skipped
      have hskip : (p + 1) * n + o - n = p * n + o := by
        rw [Nat.succ_mul]
        omega
      rw [List.getElem?_append_right (by rw [hf, Nat.succ_mul]; omega), hf, hskip, ih,
        List.getElem?_cons_succ]

theorem length_tuples {β : Type} (ss : List (List β)) :
    (tuples ss).length = RowMajor.size (ss.map List.length) := by
  induction ss with
  | nil => rfl
  | cons s ss ih =>
    have hblocks : (s.map fun b => ((tuples ss).map (b :: ·)).length) =
        List.replicate s.length (tuples ss).length := by
      simp only [List.length_map, List.map_const']
    rw [tuples_cons, List.length_flatMap, hblocks, List.sum_replicate_nat, ih, List.map_cons,
      RowMajor.size_cons]

/-- The block of an element of the first set holds the tuples that start with it. -/
theorem getElem?_tuples_cons {β : Type} (s : List β) (ss : List (List β)) (p : Nat) {o : Nat}
    (ho : o < (tuples ss).length) {k : List β} :
    (tuples (s :: ss))[p * (tuples ss).length + o]? = some k ↔
      ∃ b k', s[p]? = some b ∧ (tuples ss)[o]? = some k' ∧ k = b :: k' := by
  rw [tuples_cons, getElem?_flatMap_block (fun _ => List.length_map _) s p ho]
  simp only [Option.bind_eq_some_iff, List.getElem?_map, Option.map_eq_some_iff]
  constructor
  · rintro ⟨b, hb, k', hk', rfl⟩
    exact ⟨b, k', hb, hk', rfl⟩
  · rintro ⟨b, k', hb, hk', rfl⟩
    exact ⟨b, hb, k', hk', rfl⟩

/-- Every place of the tuples lies in the block of some element. -/
theorem getElem?_tuples_cons_div {β : Type} {s : List β} {ss : List (List β)} {i : Nat}
    {k : List β} (h : (tuples (s :: ss))[i]? = some k) :
    ∃ b k', s[i / (tuples ss).length]? = some b ∧
      (tuples ss)[i % (tuples ss).length]? = some k' ∧ k = b :: k' := by
  have hlt : i < (tuples (s :: ss)).length := (List.getElem?_eq_some_iff.mp h).1
  -- with empty blocks there would be no place at all
  have hpos : 0 < (tuples ss).length := by
    rw [length_tuples] at hlt ⊢
    rw [List.map_cons, RowMajor.size_cons] at hlt
    exact Nat.pos_of_ne_zero fun hzero => by simp [hzero] at hlt
  have hsplit : i / (tuples ss).length * (tuples ss).length + i % (tuples ss).length = i := by
    rw [Nat.mul_comm]
    exact Nat.div_add_mod i _
  rw [← hsplit] at h
  exact (getElem?_tuples_cons s ss _ (Nat.mod_lt _ hpos)).mp h

namespace RowMajor

/-! ## Positions and offsets -/

@[simp] theorem offset_nil (ps : List Nat) : offset [] ps = 0 := by
  simp [offset, strides]

@[simp] theorem offset_cons (d p : Nat) (dims ps : List Nat) :
    offset (d :: dims) (p :: ps) = p * size dims + offset dims ps := by
  simp [offset, strides]

@[simp] theorem positions_cons (d : Nat) (dims : List Nat) (i : Nat) :
    positions (d :: dims) i = i / size dims % d :: positions dims i := by
  simp [positions, strides]

/-- Only the place inside the whole array matters. -/
theorem positions_mod (dims : List Nat) (i : Nat) :
    positions dims (i % size dims) = positions dims i := by
  induction dims generalizing i with
  | nil => rfl
  | cons d dims ih =>
    have hhead : i % (d * size dims) / size dims % d = i / size dims % d := by
      rw [Nat.mod_mul_left_div_self, Nat.mod_mod]
    have htail : positions dims (i % (d * size dims)) = positions dims i := by
      rw [← ih (i % (d * size dims)), Nat.mod_mul_left_mod, ih]
    simp only [positions_cons, size_cons, hhead, htail]

end RowMajor

/-- The tuple at a place has its elements at the positions of that place. -/
theorem zipWith_positions {β : Type} {ss : List (List β)} {i : Nat} {k : List β}
    (h : (tuples ss)[i]? = some k) :
    List.zipWith (fun s p => s[p]?) ss (RowMajor.positions (ss.map List.length) i) =
      k.map some := by
  induction ss generalizing i k with
  | nil =>
    obtain ⟨-, rfl⟩ : i = 0 ∧ [] = k := by simpa [List.getElem?_singleton] using h
    rfl
  | cons s ss ih =>
    obtain ⟨b, k', hb, hk', rfl⟩ := getElem?_tuples_cons_div h
    have hlt := (List.getElem?_eq_some_iff.mp hb).1
    -- the position in the first set is below its length, and the rest only sees the place
    -- inside the block
    have htail := ih hk'
    rw [length_tuples] at hb hlt htail
    rw [RowMajor.positions_mod] at htail
    simp only [List.map_cons, RowMajor.positions_cons, List.zipWith_cons_cons,
      Nat.mod_eq_of_lt hlt, hb, htail]

/-! ## Look-up -/

/-- The function finds exactly the places of the list that hold an equal element. -/
def Locates {β : Type} (cmp : β → β → Ordering) (find : β → Option Nat) (xs : List β) : Prop :=
  ∀ x i, find x = some i ↔ ∃ y, xs[i]? = some y ∧ cmp x y = .eq

/-- Where a function finds the elements of a list, no two of them are equal. -/
theorem Locates.pairwise {β : Type} {cmp : β → β → Ordering} [Std.ReflCmp cmp]
    {find : β → Option Nat} {xs : List β} (h : Locates cmp find xs) :
    xs.Pairwise (fun x y => cmp x y ≠ .eq) := by
  rw [List.pairwise_iff_getElem]
  intro i j hi hj hij heq
  -- the element at `i` would be found at `j` as well
  have hfindi : find xs[i] = some i :=
    (h _ _).mpr ⟨xs[i], List.getElem?_eq_getElem hi, Std.ReflCmp.compare_self⟩
  have hfindj : find xs[i] = some j := (h _ _).mpr ⟨xs[j], List.getElem?_eq_getElem hj, heq⟩
  rw [hfindi, Option.some.injEq] at hfindj
  omega

/-- Where tuples are different and there is one at all, the elements of each set are different. -/
theorem pairwise_of_tuples {ss : List (List IndexValue)}
    (h : (tuples ss).Pairwise fun k k' => Key.compare k k' ≠ .eq) (hne : tuples ss ≠ []) :
    ∀ s ∈ ss, s.Pairwise fun v w => IndexValue.compare v w ≠ .eq := by
  induction ss with
  | nil => simp
  | cons s ss ih =>
    obtain ⟨k, hk⟩ := List.exists_mem_of_ne_nil _ hne
    rw [tuples_cons, List.mem_flatMap] at hk
    obtain ⟨v, hv, hk⟩ := hk
    obtain ⟨k', hk', rfl⟩ := List.mem_map.mp hk
    rw [tuples_cons, List.pairwise_flatMap] at h
    refine List.forall_mem_cons.mpr ⟨?_, ih ?_ (List.ne_nil_of_mem hk')⟩
    · -- the tuples that end in `k'` differ in their first elements only
      refine h.2.imp ?_
      intro a b hab heq
      refine hab (a :: k') (List.mem_map_of_mem hk') (b :: k') (List.mem_map_of_mem hk') ?_
      exact Key.compare_cons_eq_eq_iff.mpr ⟨heq, Key.compare_self k'⟩
    · refine (List.pairwise_map.mp (h.1 v hv)).imp ?_
      intro k₁ k₂ hne heq
      exact hne (Key.compare_cons_eq_eq_iff.mpr ⟨IndexValue.compare_self v, heq⟩)

/-- The positions of the values of a key, each found by the function of its dimension. -/
def Key.positionsBy? : List (IndexValue → Option Nat) → Key → Option (List Nat)
  | [], [] => some []
  | find :: finds, v :: k => do
    let p ← find v
    let ps ← positionsBy? finds k
    return p :: ps
  | _, _ => none

theorem Key.positionsBy?_cons_eq_some_iff {find : IndexValue → Option Nat}
    {finds : List (IndexValue → Option Nat)} {k : Key} {ps : List Nat} :
    positionsBy? (find :: finds) k = some ps ↔
      ∃ v k' p ps', k = v :: k' ∧ find v = some p ∧ positionsBy? finds k' = some ps' ∧
        ps = p :: ps' := by
  cases k with
  | nil => simp [positionsBy?]
  | cons v k =>
    simp only [positionsBy?, Option.bind_eq_bind, Option.bind_eq_some_iff]
    constructor
    · rintro ⟨p, hp, ps', hps, h⟩
      cases h
      exact ⟨v, k, p, ps', rfl, hp, hps, rfl⟩
    · rintro ⟨v', k', p, ps', hk, hp, hps, rfl⟩
      cases hk
      exact ⟨p, hp, ps', hps, rfl⟩

/-- Functions that locate the elements of each set locate the tuples of the sets. -/
theorem locates_tuples {finds : List (IndexValue → Option Nat)} {ss : List (List IndexValue)}
    (h : List.Forall₂ (Locates IndexValue.compare) finds ss) :
    Locates Key.compare
      (fun k => (Key.positionsBy? finds k).map (RowMajor.offset (ss.map List.length)))
      (tuples ss) := by
  induction h with
  | nil =>
    intro k i
    -- of no sets there is one tuple, the empty key
    cases k with
    | nil => simp [Key.positionsBy?, List.getElem?_singleton, Key.compare_self, eq_comm]
    | cons v k =>
      have hne (y : Key) (hy : [[]][i]? = some y) : Key.compare (v :: k) y ≠ .eq := by
        intro h
        obtain ⟨-, rfl⟩ : i = 0 ∧ [] = y := by simpa [List.getElem?_singleton] using hy
        exact absurd (Key.length_eq_of_compare_eq h) (by simp)
      simpa [Key.positionsBy?] using hne
  | @cons find s finds ss hfind _ ih =>
    intro k i
    rw [Option.map_eq_some_iff]
    constructor
    · rintro ⟨ps, hps, rfl⟩
      obtain ⟨v, k', p, ps', rfl, hp, hps', rfl⟩ := Key.positionsBy?_cons_eq_some_iff.mp hps
      obtain ⟨b, hb, hvb⟩ := (hfind v p).mp hp
      obtain ⟨y, hy, hky⟩ := (ih k' _).mp (Option.map_eq_some_iff.mpr ⟨ps', hps', rfl⟩)
      -- the rest of the key is found inside the block of `b`
      have ho := (List.getElem?_eq_some_iff.mp hy).1
      refine ⟨b :: y, ?_, Key.compare_cons_eq_eq_iff.mpr ⟨hvb, hky⟩⟩
      rw [List.map_cons, RowMajor.offset_cons, ← length_tuples]
      exact (getElem?_tuples_cons s ss p ho).mpr ⟨b, y, hb, hy, rfl⟩
    · rintro ⟨y, hy, hky⟩
      -- the place names a block and a place inside it, and both are found
      obtain ⟨b, y', hb, hy', rfl⟩ := getElem?_tuples_cons_div hy
      cases k with
      | nil => exact absurd (Key.length_eq_of_compare_eq hky) (by simp)
      | cons v k' =>
        obtain ⟨hvb, hky'⟩ := Key.compare_cons_eq_eq_iff.mp hky
        have hp := (hfind v _).mpr ⟨b, hb, hvb⟩
        obtain ⟨ps, hps, ho⟩ := Option.map_eq_some_iff.mp ((ih k' _).mpr ⟨y', hy', hky'⟩)
        refine ⟨_, Key.positionsBy?_cons_eq_some_iff.mpr ⟨v, k', _, ps, rfl, hp, hps, rfl⟩, ?_⟩
        rw [List.map_cons, RowMajor.offset_cons, ← length_tuples, ho, Nat.mul_comm]
        exact Nat.div_add_mod i _

end AlgebraicModel
