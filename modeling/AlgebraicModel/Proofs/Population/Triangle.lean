import AlgebraicModel.Population.Symmetric
import AlgebraicModel.Proofs.Container.RowMajor

/-!
# The upper triangle of a square

A symmetric matrix of side `n` is built from its upper triangle, row by row. The list of upper cells
is in row-major order and has each of them once (`isUpperTriangle_upperEntries`), and `upperPlace`
is the place of a cell in it (`getElem?_upperCells`).

The cells of the matrix are filled one after the other, each upper one with an element of its own
(`fillCell_of_le`) and each lower one with a copy of a slot that was filled before
(`fillCell_of_lt`). That slot is always there, and it is that of the mirror image
(`getElem?_filled_mirror`), so in the end each cell holds the element that was built for it or for
its mirror image (`foldlM_fillCell`). Filling a square therefore is to build the upper triangle and
to `reflect` it (`fillSquare_eq`, `populateSymmetric_eq`), and `reflect` looks for the element of a
cell at the place of the upper cell (`getElem?_reflect`).
-/

set_option autoImplicit false

namespace AlgebraicModel

variable {α : Type}

namespace Declaration

/-! ## Cells, row by row -/

/-- The first cell comes before the second one when the cells are taken row by row. -/
def Precedes (p q : Nat × Nat) : Prop := p.1 < q.1 ∨ p.1 = q.1 ∧ p.2 < q.2

/-- In a list of cells in order, every cell has one place. -/
theorem place_inj {cells : List (Nat × Nat)} (h : cells.Pairwise Precedes) {k k' : Nat}
    {p : Nat × Nat} (hk : cells[k]? = some p) (hk' : cells[k']? = some p) : k = k' := by
  have hnodup : cells.Nodup := by
    refine h.imp ?_
    rintro p q hpq rfl
    rw [Precedes] at hpq
    omega
  have hlt := (List.getElem?_eq_some_iff.mp hk).1
  exact (List.getElem?_inj hlt hnodup).mp (hk.trans hk'.symm)

theorem length_allCells (n : Nat) : (allCells n).length = n * n := by
  simp [allCells, List.length_flatMap, List.map_const']

theorem getElem?_allCells {n i j : Nat} (hi : i < n) (hj : j < n) :
    (allCells n)[i * n + j]? = some (i, j) := by
  rw [allCells, getElem?_flatMap_block (fun _ => by simp) _ i hj, List.getElem?_range hi,
    Option.bind_some, List.getElem?_map, List.getElem?_range hj, Option.map_some]

theorem mem_allCells_iff {n : Nat} {cell : Nat × Nat} :
    cell ∈ allCells n ↔ cell.1 < n ∧ cell.2 < n := by
  obtain ⟨i, j⟩ := cell
  simp [allCells]

theorem pairwise_allCells (n : Nat) : (allCells n).Pairwise Precedes := by
  rw [allCells, List.pairwise_flatMap]
  constructor
  · -- in a row the columns ascend
    intro i _
    rw [List.pairwise_map]
    exact List.pairwise_lt_range.imp fun hj => .inr ⟨rfl, hj⟩
  · refine List.pairwise_lt_range.imp ?_
    intro i i' hi p hp q hq
    obtain ⟨j, -, rfl⟩ := List.mem_map.mp hp
    obtain ⟨j', -, rfl⟩ := List.mem_map.mp hq
    exact .inl hi

/-! ## The upper triangle -/

/-- The cells of the upper triangle of side `n`, row by row. -/
def upperCells (n : Nat) : List (Nat × Nat) :=
  (List.range n).flatMap fun i => (List.range (n - i)).map fun k => (i, i + k)

/-- The place of an upper cell in `upperCells n`. -/
def upperPlace (n i j : Nat) : Nat := i * (2 * n - i + 1) / 2 + (j - i)

example : (upperCells 3).map (fun (i, j) => upperPlace 3 i j) = [0, 1, 2, 3, 4, 5] := by decide

/-- The upper cells of one row. -/
def upperRow (n i : Nat) : List (Nat × Nat) := (List.range (n - i)).map fun k => (i, i + k)

theorem upperCells_eq_flatMap (n : Nat) :
    upperCells n = (List.range n).flatMap (upperRow n) := rfl

theorem length_upperRow (n i : Nat) : (upperRow n i).length = n - i := by
  simp [upperRow]

/-- The upper cells are those of all cells that are on or above the diagonal. -/
theorem filter_allCells (n : Nat) :
    ((allCells n).filter fun cell => cell.1 ≤ cell.2) = upperCells n := by
  rw [allCells, upperCells_eq_flatMap, List.filter_flatMap]
  apply List.flatMap_congr
  intro i hi
  -- a row is a part left of the diagonal, which goes, and the rest, which stays
  obtain ⟨m, rfl⟩ := Nat.exists_eq_add_of_lt (List.mem_range.mp hi)
  have hrest : i + m + 1 - i = m + 1 := by omega
  rw [upperRow, hrest, Nat.add_assoc, List.range_add, List.map_append, List.filter_append,
    List.map_map]
  have hleft : (((List.range i).map fun j => (i, j)).filter fun cell => cell.1 ≤ cell.2) = [] := by
    simp
  have hright : (((List.range (m + 1)).map ((fun j => (i, j)) ∘ fun k => i + k)).filter
      fun cell => cell.1 ≤ cell.2) = (List.range (m + 1)).map fun k => (i, i + k) := by
    refine List.filter_eq_self.mpr ?_
    simp
  rw [hleft, hright, List.nil_append]

theorem pairwise_upperCells (n : Nat) : (upperCells n).Pairwise Precedes := by
  rw [← filter_allCells]
  exact (pairwise_allCells n).filter _

theorem mem_upperCells_iff {n : Nat} {cell : Nat × Nat} :
    cell ∈ upperCells n ↔ cell.1 ≤ cell.2 ∧ cell.2 < n := by
  rw [← filter_allCells, List.mem_filter, mem_allCells_iff, decide_eq_true_eq]
  omega

/-- Twice the number of upper cells in the rows before row `i`. -/
theorem two_mul_length_rows {n i : Nat} (hi : i ≤ n) :
    2 * ((List.range i).flatMap (upperRow n)).length = i * (2 * n - i + 1) := by
  induction i with
  | zero => simp
  | succ i ih =>
    obtain ⟨m, rfl⟩ := Nat.exists_eq_add_of_le hi
    have hrows := ih (by omega)
    have hbefore : 2 * (i + 1 + m) - i + 1 = i + 3 + 2 * m := by omega
    have hafter : 2 * (i + 1 + m) - (i + 1) + 1 = i + 2 + 2 * m := by omega
    have hrow : i + 1 + m - i = m + 1 := by omega
    rw [hbefore] at hrows
    rw [List.range_succ, List.flatMap_append, List.flatMap_singleton, List.length_append,
      length_upperRow, Nat.mul_add, hrows, hafter, hrow]
    ring

/-- The rows before row `i` end where `upperPlace` says that row `i` starts. -/
theorem length_rows {n i : Nat} (hi : i ≤ n) :
    ((List.range i).flatMap (upperRow n)).length = i * (2 * n - i + 1) / 2 := by
  rw [← two_mul_length_rows hi, Nat.mul_div_cancel_left _ (by omega)]

theorem length_upperCells (n : Nat) : (upperCells n).length = n * (n + 1) / 2 := by
  have hside : 2 * n - n + 1 = n + 1 := by omega
  rw [upperCells_eq_flatMap, length_rows (Nat.le_refl n), hside]

/-- An upper cell stands at its place. -/
theorem getElem?_upperCells {n i j : Nat} (hij : i ≤ j) (hj : j < n) :
    (upperCells n)[upperPlace n i j]? = some (i, j) := by
  -- the place is behind the rows before row `i`, and `j - i` cells into that row
  obtain ⟨m, rfl⟩ := Nat.exists_eq_add_of_le (show i + 1 ≤ n by omega)
  have hrows := length_rows (show i ≤ i + 1 + m by omega)
  have hrange : List.range (i + 1 + m) =
      List.range i ++ i :: (List.range m).map (i + 1 + ·) := by
    rw [List.range_add, List.range_succ, List.append_assoc, List.singleton_append]
  have hcell : (upperRow (i + 1 + m) i)[j - i]? = some (i, j) := by
    have hk : j - i < i + 1 + m - i := by omega
    rw [upperRow, List.getElem?_map, List.getElem?_range hk, Option.map_some]
    congr 2
    omega
  -- the rows before are passed over as a whole, those behind are not reached
  rw [upperCells_eq_flatMap, upperPlace, ← hrows, hrange, List.flatMap_append, List.flatMap_cons,
    List.getElem?_append_right (Nat.le_add_right _ _), Nat.add_sub_cancel_left,
    List.getElem?_append_left (by rw [length_upperRow]; omega), hcell]

/-- A list of the entries of a matrix of side `n` on and above the diagonal, counted from one, row
by row. -/
structure IsUpperTriangle (n : Nat) (entries : List (Nat × Nat)) : Prop where
  rowMajor : entries.Pairwise Precedes
  mem_iff : ∀ i j, (i, j) ∈ entries ↔ 1 ≤ i ∧ i ≤ j ∧ j ≤ n

/-- The upper cells, counted from one. -/
def upperEntries (n : Nat) : List (Nat × Nat) := (upperCells n).map fun (i, j) => (i + 1, j + 1)

theorem length_upperEntries (n : Nat) : (upperEntries n).length = n * (n + 1) / 2 := by
  rw [upperEntries, List.length_map, length_upperCells]

theorem isUpperTriangle_upperEntries (n : Nat) : IsUpperTriangle n (upperEntries n) where
  rowMajor := by
    rw [upperEntries, List.pairwise_map]
    refine (pairwise_upperCells n).imp ?_
    rintro ⟨i, j⟩ ⟨i', j'⟩ h
    simp only [Precedes] at h ⊢
    omega
  mem_iff i j := by
    simp only [upperEntries, List.mem_map, mem_upperCells_iff, Prod.exists, Prod.mk.injEq]
    constructor
    · rintro ⟨i', j', hcell, rfl, rfl⟩
      omega
    · rintro ⟨hi, hij, hj⟩
      exact ⟨i - 1, j - 1, by omega, by omega, by omega⟩

/-! ## The matrix made from the upper triangle -/

/-- The shared element that a cell and its mirror image hold. -/
def cellElement? (n : Nat) (upper : List α) (cell : Nat × Nat) : Option (Shared α) :=
  (upper[upperPlace n (min cell.1 cell.2) (max cell.1 cell.2)]?).map
    (Shared.mk (upperPlace n (min cell.1 cell.2) (max cell.1 cell.2)))

/-- The square array in which both cells of a pair hold the element built for the upper one. -/
def reflect (n : Nat) (upper : List α) : DenseArray (Shared α) :=
  ⟨[n, n], ((allCells n).filterMap (cellElement? n upper)).toArray⟩

/-- Where every element of a list is kept, each keeps its place. -/
theorem getElem?_filterMap {β γ : Type} {f : β → Option γ} {xs : List β}
    (h : ∀ x ∈ xs, ∃ y, f x = some y) (k : Nat) : (xs.filterMap f)[k]? = xs[k]?.bind f := by
  induction xs generalizing k with
  | nil => rfl
  | cons x xs ih =>
    obtain ⟨⟨y, hy⟩, hxs⟩ := List.forall_mem_cons.mp h
    rw [List.filterMap_cons_some hy]
    cases k with
    | zero => rw [List.getElem?_cons_zero, List.getElem?_cons_zero, Option.bind_some, hy]
    | succ k => rw [List.getElem?_cons_succ, List.getElem?_cons_succ, ih hxs]

section Whole

variable {n : Nat} {upper : List α} (hupper : upper.length = (upperCells n).length)

include hupper

/-- A cell has its element when the whole upper triangle was built. -/
theorem exists_upper {i j : Nat} (hij : i ≤ j) (hj : j < n) :
    ∃ a, upper[upperPlace n i j]? = some a := by
  have hlt := (List.getElem?_eq_some_iff.mp (getElem?_upperCells hij hj)).1
  exact ⟨_, List.getElem?_eq_getElem (by omega)⟩

theorem exists_cellElement? : ∀ cell ∈ allCells n, ∃ x, cellElement? n upper cell = some x := by
  intro cell hcell
  obtain ⟨hi, hj⟩ := mem_allCells_iff.mp hcell
  obtain ⟨a, ha⟩ := exists_upper hupper (show min cell.1 cell.2 ≤ max cell.1 cell.2 by omega)
    (by omega)
  exact ⟨_, by rw [cellElement?, ha, Option.map_some]⟩

theorem getElem?_reflect {i j : Nat} (hi : i < n) (hj : j < n) :
    (reflect n upper).data[i * n + j]? = cellElement? n upper (i, j) := by
  rw [reflect, List.getElem?_toArray, getElem?_filterMap (exists_cellElement? hupper),
    getElem?_allCells hi hj, Option.bind_some]

theorem size_reflect : (reflect n upper).data.size = n * n := by
  rw [reflect, List.size_toArray, ← length_allCells n]
  refine List.filterMap_length_eq_length.mpr ?_
  intro cell hcell
  exact Option.isSome_iff_exists.mpr (exists_cellElement? hupper cell hcell)

end Whole

/-! ## Filling the matrix cell by cell -/

/-- The cells before a cell are as many as its offset says. -/
theorem length_before {n i j : Nat} {before after : List (Nat × Nat)}
    (h : allCells n = before ++ (i, j) :: after) : before.length = i * n + j := by
  have hcell : (i, j) ∈ allCells n := by
    rw [h]
    simp
  obtain ⟨hi, hj⟩ := mem_allCells_iff.mp hcell
  refine place_inj (pairwise_allCells n) ?_ (getElem?_allCells hi hj)
  rw [h, List.getElem?_append_right (Nat.le_refl _), Nat.sub_self, List.getElem?_cons_zero]

/-- The number of upper cells in a list. -/
def countUpper (cells : List (Nat × Nat)) : Nat := cells.countP fun cell => cell.1 ≤ cell.2

theorem countUpper_concat (cells : List (Nat × Nat)) (i j : Nat) :
    countUpper (cells ++ [(i, j)]) = countUpper cells + if i ≤ j then 1 else 0 := by
  rw [countUpper, List.countP_append, List.countP_singleton]
  simp [countUpper]

/-- The upper cells before an upper cell are as many as its place says. -/
theorem countUpper_before {n i j : Nat} {before after : List (Nat × Nat)} (hij : i ≤ j)
    (hj : j < n) (h : allCells n = before ++ (i, j) :: after) :
    countUpper before = upperPlace n i j := by
  refine place_inj (pairwise_upperCells n) ?_ (getElem?_upperCells hij hj)
  rw [countUpper, List.countP_eq_length_filter, ← filter_allCells, h, List.filter_append,
    List.filter_cons_of_pos (by simpa using hij), List.getElem?_append_right (Nat.le_refl _),
    Nat.sub_self, List.getElem?_cons_zero]

section Steps

variable {n : Nat} {before after : List (Nat × Nat)} (h : allCells n = before ++ after)

include h

/-- The mirror image of a lower cell was passed when the cell was, and no cell was passed whose
element was not built. -/
theorem place_lt_countUpper {cell : Nat × Nat} (hcell : cell ∈ before) :
    upperPlace n (min cell.1 cell.2) (max cell.1 cell.2) < countUpper before := by
  obtain ⟨i, j⟩ := cell
  have hall : (i, j) ∈ allCells n := by
    rw [h]
    exact List.mem_append_left _ hcell
  obtain ⟨hi, hj⟩ := mem_allCells_iff.mp hall
  have hupper : (min i j, max i j) ∈ allCells n := mem_allCells_iff.mpr ⟨by omega, by omega⟩
  have hpassed : (min i j, max i j) ∈ before := by
    rw [h, List.mem_append] at hupper
    refine hupper.resolve_right fun hafter => ?_
    -- what comes later is further to the right or further down
    have hordered := pairwise_allCells n
    rw [h, List.pairwise_append] at hordered
    have hprecedes := hordered.2.2 (i, j) hcell (min i j, max i j) hafter
    simp only [Precedes] at hprecedes
    omega
  obtain ⟨front, back, rfl⟩ := List.append_of_mem hpassed
  rw [List.append_assoc, List.cons_append] at h
  have hplace := countUpper_before (show min i j ≤ max i j by omega) (by omega) h
  rw [← hplace, countUpper, countUpper, List.countP_append, List.countP_cons_of_pos]
  · omega
  · simp

variable {upper : List α} (hupper : upper.length = countUpper before)

include hupper

theorem exists_cellElement?_of_before {cell : Nat × Nat} (hcell : cell ∈ before) :
    ∃ x, cellElement? n upper cell = some x := by
  have hlt := place_lt_countUpper h hcell
  rw [← hupper] at hlt
  exact ⟨_, by rw [cellElement?, List.getElem?_eq_getElem hlt, Option.map_some]⟩

/-- What is built later does not change the cells that are filled. -/
theorem filterMap_cellElement?_append (more : List α) :
    before.filterMap (cellElement? n (upper ++ more)) =
      before.filterMap (cellElement? n upper) := by
  apply List.filterMap_congr
  intro cell hcell
  have hlt := place_lt_countUpper h hcell
  rw [← hupper] at hlt
  rw [cellElement?, cellElement?, List.getElem?_append_left hlt]

end Steps

/-- When a lower cell is filled, the slot of its mirror image holds the element that is copied. -/
theorem getElem?_filled_mirror {n i j : Nat} {before after : List (Nat × Nat)} (hji : j < i)
    (h : allCells n = before ++ (i, j) :: after) {upper : List α}
    (hupper : upper.length = countUpper before) :
    ∃ x, cellElement? n upper (i, j) = some x ∧
      (before.filterMap (cellElement? n upper))[j * n + i]? = some x := by
  have hcell : (i, j) ∈ allCells n := by
    rw [h]
    simp
  obtain ⟨hi, hj⟩ := mem_allCells_iff.mp hcell
  -- the mirror image is in an earlier row
  have hlt : j * n + i < i * n + j := by
    have hrow : (j + 1) * n ≤ i * n := Nat.mul_le_mul_right n hji
    rw [Nat.succ_mul] at hrow
    omega
  have hmirror := getElem?_allCells hj hi
  rw [h, List.getElem?_append_left (by rw [length_before h]; exact hlt)] at hmirror
  obtain ⟨x, hx⟩ := exists_cellElement?_of_before h hupper (List.mem_of_getElem? hmirror)
  have hsame : cellElement? n upper (i, j) = cellElement? n upper (j, i) := by
    rw [cellElement?, cellElement?, Nat.min_comm, Nat.max_comm]
  refine ⟨x, hsame.trans hx, ?_⟩
  rw [getElem?_filterMap (fun cell => exists_cellElement?_of_before h hupper), hmirror,
    Option.bind_some, hx]

/-- The element that is built next is that of the next upper cell. -/
theorem cellElement?_next {n i j : Nat} {before after : List (Nat × Nat)} (hij : i ≤ j)
    (h : allCells n = before ++ (i, j) :: after) {upper : List α}
    (hupper : upper.length = countUpper before) (a : α) :
    cellElement? n (upper ++ [a]) (i, j) = some ⟨upper.length, a⟩ := by
  have hcell : (i, j) ∈ allCells n := by
    rw [h]
    simp
  have hplace := countUpper_before hij (mem_allCells_iff.mp hcell).2 h
  rw [cellElement?, Nat.min_eq_left hij, Nat.max_eq_right hij, ← hplace, ← hupper,
    List.getElem?_append_right (Nat.le_refl _), Nat.sub_self, List.getElem?_cons_zero,
    Option.map_some]

/-- How far a square is filled: the data of the cells before, and the number of elements that were
built for the upper ones among them. -/
def filled (n : Nat) (before : List (Nat × Nat)) (upper : List α) : Array (Shared α) × Nat :=
  ((before.filterMap (cellElement? n upper)).toArray, upper.length)

variable {m : Type → Type} [Monad m]

section Filling

variable {n i j : Nat} {before after : List (Nat × Nat)} {upper : List α}
  (element : Nat × Nat → m α) (h : allCells n = before ++ (i, j) :: after)
  (hupper : upper.length = countUpper before)

include h hupper

/-- An element is built for an upper cell and put behind the data. -/
theorem fillCell_of_le [LawfulMonad m] (hij : i ≤ j) :
    fillCell n element (filled n before upper) (i, j) =
      (fun a => filled n (before ++ [(i, j)]) (upper ++ [a])) <$> element (i, j) := by
  have hpush (a : α) : filled n (before ++ [(i, j)]) (upper ++ [a]) =
      ((filled n before upper).1.push ⟨upper.length, a⟩, upper.length + 1) := by
    rw [filled, List.filterMap_append, filterMap_cellElement?_append h hupper,
      List.filterMap_cons_some (cellElement?_next hij h hupper a), List.filterMap_nil,
      List.length_append, List.length_singleton, filled, List.push_toArray]
  simp only [hpush, map_eq_pure_bind]
  rw [filled, fillCell, if_pos hij]

/-- A lower cell gets a copy of its mirror image, and nothing is built. -/
theorem fillCell_of_lt (hji : j < i) :
    fillCell n element (filled n before upper) (i, j) =
      pure (filled n (before ++ [(i, j)]) upper) := by
  obtain ⟨x, hx, hslot⟩ := getElem?_filled_mirror hji h hupper
  rw [filled, fillCell, if_neg (Nat.not_le_of_lt hji), List.getElem?_toArray, hslot,
    Option.elim_some, List.push_toArray, filled, List.filterMap_append,
    List.filterMap_cons_some hx, List.filterMap_nil]

end Filling

variable [LawfulMonad m]

/-- Filling builds the elements of the upper cells that are left, and gives every cell the element
that was built for it or for its mirror image. -/
theorem foldlM_fillCell {n : Nat} (element : Nat × Nat → m α) {before after : List (Nat × Nat)}
    (h : allCells n = before ++ after) {upper : List α}
    (hupper : upper.length = countUpper before) :
    after.foldlM (fillCell n element) (filled n before upper) =
      (fun rest => filled n (allCells n) (upper ++ rest)) <$>
        (after.filter fun cell => cell.1 ≤ cell.2).mapM element := by
  -- over the cells that are left, whatever was built for those before
  induction after generalizing before upper with
  | nil =>
    rw [List.append_nil] at h
    rw [List.foldlM_nil, List.filter_nil, List.mapM_nil, map_pure, List.append_nil, h]
  | cons cell after ih =>
    obtain ⟨i, j⟩ := cell
    have hnext : allCells n = (before ++ [(i, j)]) ++ after := by
      rw [h, List.append_assoc, List.singleton_append]
    by_cases hij : i ≤ j
    · have hcount (a : α) : (upper ++ [a]).length = countUpper (before ++ [(i, j)]) := by
        rw [List.length_append, hupper, countUpper_concat, if_pos hij, List.length_singleton]
      rw [List.foldlM_cons, fillCell_of_le element h hupper hij,
        List.filter_cons_of_pos (by simpa using hij), List.mapM_cons]
      simp only [map_eq_pure_bind, bind_assoc, pure_bind, ih hnext (hcount _), List.append_assoc,
        List.singleton_append]
    · have hcount : upper.length = countUpper (before ++ [(i, j)]) := by
        rw [hupper, countUpper_concat, if_neg hij, Nat.add_zero]
      rw [List.foldlM_cons, fillCell_of_lt element h hupper (Nat.lt_of_not_le hij), pure_bind,
        ih hnext hcount, List.filter_cons_of_neg (by simpa using hij)]

/-- To fill a square is to build its upper triangle and to reflect it. -/
theorem fillSquare_eq (n : Nat) (element : Nat × Nat → m α) :
    fillSquare n element =
      (fun upper => (reflect n upper).data) <$> (upperCells n).mapM element := by
  have hempty : ([] : List α).length = countUpper [] := rfl
  have hfill := foldlM_fillCell element (List.nil_append (allCells n)).symm hempty
  rw [filter_allCells] at hfill
  exact (congrArg (Prod.fst <$> ·) hfill).trans (Functor.map_map _ _ _)

/-- A symmetric matrix is the reflection of its upper triangle. -/
theorem populateSymmetric_eq [Closeness] {σ : Type} (l : Label) (d : Declaration) (params : Params)
    (build : Builder σ α) :
    d.populateSymmetric l params build = do
      let n ← BuildM.ofExcept (d.symmetricSize l params)
      let upper ← (upperCells n).mapM fun (i, j) =>
        BuildM.labelled l (build (d.bindingsAt params (cellKey i j)))
      return .dense (reflect n upper) := by
  simp only [populateSymmetric, fillSquare_eq, map_eq_pure_bind, bind_assoc, pure_bind]
  rfl

end Declaration

end AlgebraicModel
