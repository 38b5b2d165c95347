import AlgebraicModel.Proofs.Population.Symmetric

/-!
# The upper triangle, column by column

A cone of symmetric matrices takes the upper triangle column by column, while the matrix is built
row by row. The cell of row `i` and column `j`, counted from zero, is behind the `j * (j + 1) / 2`
cells of the columns before (`getElem?_columnCells`), and the upper triangle of a matrix with shared
elements has there the element that was built for the cell (`getElem?_upperTriangle_reflect`,
`exists_place_of_entry`).
-/

set_option autoImplicit false

namespace AlgebraicModel

namespace Declaration

variable {α : Type}

/-- The upper cells of side `n`, column by column. -/
def columnCells (n : Nat) : List (Nat × Nat) :=
  (List.range n).flatMap fun j => (List.range (j + 1)).map fun i => (i, j)

theorem columnCells_succ (n : Nat) :
    columnCells (n + 1) = columnCells n ++ (List.range (n + 1)).map fun i => (i, n) := by
  rw [columnCells, List.range_succ (n := n), List.flatMap_append, List.flatMap_singleton,
    ← List.range_succ, columnCells]

theorem length_columnCells (n : Nat) : (columnCells n).length = n * (n + 1) / 2 := by
  have htwice : 2 * (columnCells n).length = n * (n + 1) := by
    induction n with
    | zero => rfl
    | succ n ih =>
      rw [columnCells_succ, List.length_append, List.length_map, List.length_range, Nat.mul_add, ih]
      ring
  omega

/-- The place of an upper cell is behind the columns before, `i` cells into its own. -/
theorem getElem?_columnCells {n i j : Nat} (hij : i ≤ j) (hj : j < n) :
    (columnCells n)[j * (j + 1) / 2 + i]? = some (i, j) := by
  induction n with
  | zero => omega
  | succ n ih =>
    rw [columnCells_succ]
    by_cases hlast : j = n
    · rw [hlast, List.getElem?_append_right (by rw [length_columnCells]; omega), length_columnCells,
        Nat.add_sub_cancel_left, List.getElem?_map, List.getElem?_range (by omega), Option.map_some]
    · have hbefore := ih (by omega)
      rw [List.getElem?_append_left (List.getElem?_eq_some_iff.mp hbefore).1, hbefore]

theorem mem_columnCells_iff {n : Nat} {cell : Nat × Nat} :
    cell ∈ columnCells n ↔ cell.1 ≤ cell.2 ∧ cell.2 < n := by
  obtain ⟨i, j⟩ := cell
  simp [columnCells]
  omega

section

variable {n : Nat} {a b : Int64} {upper : List α} (ha : (DenseArray.indexSet a).length = n)
  (hb : (DenseArray.indexSet b).length = n) (hupper : upper.length = (upperCells n).length)

include ha hb hupper

/-- The elements of the upper triangle are those of the upper cells. -/
theorem upperTriangle_reflect :
    (Container.dense (reflect n upper)).upperTriangle =
      (columnCells n).filterMap (cellElement? n upper) := by
  have hget {i j : Nat} (hij : i ≤ j) (hj : j < n) :
      (reflect n upper).get? (cellKey i j) = cellElement? n upper (i, j) := by
    obtain ⟨x, hx⟩ := exists_cellElement? hupper (i, j) (mem_allCells_iff.mpr ⟨by omega, hj⟩)
    rw [hx]
    exact get?_reflect ha hb hupper (by omega) hj hx (Key.compare_self _)
  rw [reflect, Container.upperTriangle, if_pos rfl, columnCells, List.filterMap_flatMap]
  apply List.flatMap_congr
  intro j hj
  have hj := List.mem_range.mp hj
  rw [List.filterMap_map]
  apply List.filterMap_congr
  intro i hi
  have hi := List.mem_range.mp hi
  exact hget (by omega) hj

omit ha hb in
theorem exists_of_mem_columnCells :
    ∀ cell ∈ columnCells n, ∃ x, cellElement? n upper cell = some x := by
  intro cell hcell
  obtain ⟨hij, hj⟩ := mem_columnCells_iff.mp hcell
  exact exists_cellElement? hupper cell (mem_allCells_iff.mpr ⟨by omega, hj⟩)

theorem length_upperTriangle_reflect :
    (Container.dense (reflect n upper)).upperTriangle.length = n * (n + 1) / 2 := by
  rw [upperTriangle_reflect ha hb hupper, ← length_columnCells]
  refine List.filterMap_length_eq_length.mpr ?_
  intro cell hcell
  exact Option.isSome_iff_exists.mpr (exists_of_mem_columnCells hupper cell hcell)

/-- The upper triangle has the element of a cell at the place of the cell. -/
theorem getElem?_upperTriangle_reflect {i j : Nat} (hij : i ≤ j) (hj : j < n) :
    (Container.dense (reflect n upper)).upperTriangle[j * (j + 1) / 2 + i]? =
      cellElement? n upper (i, j) := by
  rw [upperTriangle_reflect ha hb hupper, getElem?_filterMap (exists_of_mem_columnCells hupper),
    getElem?_columnCells hij hj, Option.bind_some]

/-- The element of an upper cell is found at its key and at its place in the upper triangle. -/
theorem get?_reflect_upper {i j : Nat} (hij : i ≤ j) (hj : j < n) {x : α}
    (hx : upper[upperPlace n i j]? = some x) :
    (Container.dense (reflect n upper)).get? (cellKey i j) = some ⟨upperPlace n i j, x⟩ ∧
      ((Container.dense (reflect n upper)).upperTriangle.map (·.value))[j * (j + 1) / 2 + i]? =
        some x := by
  have hcell : cellElement? n upper (i, j) = some ⟨upperPlace n i j, x⟩ := by
    rw [cellElement?, Nat.min_eq_left hij, Nat.max_eq_right hij, hx, Option.map_some]
  refine ⟨get?_reflect ha hb hupper (by omega) hj hcell (Key.compare_self _), ?_⟩
  rw [List.getElem?_map, getElem?_upperTriangle_reflect ha hb hupper hij hj, hcell, Option.map_some]

/-- Counted from one, the entry of row `i` and column `j` is element `j * (j - 1) / 2 + i` of the
upper triangle. -/
theorem exists_place_of_entry {i j : Nat} (hi : 1 ≤ i) (hij : i ≤ j) (hj : j ≤ n) :
    ∃ k, k < upper.length ∧ (upperEntries n)[k]? = some (i, j) ∧ ∀ x, upper[k]? = some x →
      let matrix := Container.dense (reflect n upper)
      matrix.get? (entryKey i j) = some ⟨k, x⟩ ∧
        (matrix.upperTriangle.map (·.value))[j * (j - 1) / 2 + i - 1]? = some x := by
  obtain ⟨i, rfl⟩ := Nat.exists_eq_add_of_le' hi
  obtain ⟨j, rfl⟩ := Nat.exists_eq_add_of_le' (hi.trans hij)
  have hij : i ≤ j := by omega
  have hj : j < n := by omega
  have hcell := getElem?_upperCells hij hj
  have hposition : (j + 1) * (j + 1 - 1) / 2 + (i + 1) - 1 = j * (j + 1) / 2 + i := by
    rw [Nat.add_sub_cancel, Nat.mul_comm (j + 1) j]
    omega
  refine ⟨upperPlace n i j, ?_, ?_, ?_⟩
  · rw [hupper]
    exact (List.getElem?_eq_some_iff.mp hcell).1
  · rw [upperEntries, List.getElem?_map, hcell, Option.map_some]
  · intro x hx
    rw [hposition]
    exact get?_reflect_upper ha hb hupper hij hj hx

/-- What stands in the upper triangle was built for it. -/
theorem value_mem_of_mem_upperTriangle {x : Shared α}
    (hx : x ∈ (Container.dense (reflect n upper)).upperTriangle) : x.value ∈ upper := by
  rw [upperTriangle_reflect ha hb hupper] at hx
  obtain ⟨cell, -, hcell⟩ := List.mem_filterMap.mp hx
  obtain ⟨y, hy, rfl⟩ := Option.map_eq_some_iff.mp hcell
  exact List.mem_of_getElem? hy

end

end Declaration

end AlgebraicModel
