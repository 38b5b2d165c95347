import AlgebraicModel.Proofs.Population.ChecksFirst

/-!
# Symmetric matrices share their mirrored entries

The elements of a symmetric matrix are built for its upper triangle only. `Mirrors` says of a
container that it is the matrix with these elements: two entries hold the same shared element
exactly when they are the same entry or mirror images of each other, and it is the one that the call
for the upper one gave back. A population that succeeds gives such a container
(`Declaration.populateSymmetric_shares`), and the declaration is also one of a dense array of the
same side.
-/

set_option autoImplicit false

namespace AlgebraicModel

variable {σ α : Type}

namespace Declaration

/-! ## Look-up -/

section LookUp

variable {n : Nat} {a b : Int64} (ha : (DenseArray.indexSet a).length = n)
  (hb : (DenseArray.indexSet b).length = n)

include hb

theorem length_columns : (tuples [DenseArray.indexSet b]).length = n := by
  rw [length_tuples, List.map_singleton, RowMajor.size_cons, RowMajor.size_nil, hb, Nat.mul_one]

include ha

/-- The tuple at the offset of a cell is the key of the cell. -/
theorem getElem?_tuples_cell {i j : Nat} (hi : i < n) (hj : j < n) :
    (tuples [DenseArray.indexSet a, DenseArray.indexSet b])[i * n + j]? = some (cellKey i j) := by
  have hrow := DenseArray.getElem?_indexSet_eq_some_iff.mpr ⟨by rw [ha]; exact hi, rfl⟩
  have hcolumn := DenseArray.getElem?_indexSet_eq_some_iff.mpr ⟨by rw [hb]; exact hj, rfl⟩
  have hpair := (getElem?_tuples_cons (DenseArray.indexSet b) [] j Nat.zero_lt_one).mpr
    ⟨_, [], hcolumn, rfl, rfl⟩
  have hlength := length_columns hb
  rw [tuples_nil, List.length_singleton, Nat.mul_one, Nat.add_zero] at hpair
  rw [← hlength]
  exact (getElem?_tuples_cons _ _ i (by omega)).mpr ⟨_, _, hrow, hpair, rfl⟩

/-- Every tuple of two dense dimensions is the key of a cell. -/
theorem exists_cell_of_mem_tuples {k : Key}
    (hk : k ∈ tuples [DenseArray.indexSet a, DenseArray.indexSet b]) :
    ∃ i j, i < n ∧ j < n ∧ k = cellKey i j := by
  simp only [tuples_cons, tuples_nil, List.mem_flatMap, List.mem_map, List.mem_singleton,
    exists_eq_left] at hk
  obtain ⟨v, hv, k', ⟨w, hw, rfl⟩, rfl⟩ := hk
  obtain ⟨i, hi⟩ := List.mem_iff_getElem?.mp hv
  obtain ⟨j, hj⟩ := List.mem_iff_getElem?.mp hw
  obtain ⟨hilt, rfl⟩ := DenseArray.getElem?_indexSet_eq_some_iff.mp hi
  obtain ⟨hjlt, rfl⟩ := DenseArray.getElem?_indexSet_eq_some_iff.mp hj
  exact ⟨i, j, by omega, by omega, rfl⟩

variable {upper : List α} (hupper : upper.length = (upperCells n).length)

include hupper

theorem stores_reflect : (Container.dense (reflect n upper)).Stores
    ((tuples [DenseArray.indexSet a, DenseArray.indexSet b]).zip
      (reflect n upper).data.toList) := by
  have hlength : (tuples [DenseArray.indexSet a, DenseArray.indexSet b]).length =
      (reflect n upper).data.toList.length := by
    rw [length_tuples, Array.length_toList, size_reflect hupper]
    simp [ha, hb]
  have hstores := Container.stores_dense [a, b] hlength
  simpa [ha, hb, reflect] using hstores

/-- A key that is equal to that of a cell finds the element of the cell. -/
theorem get?_reflect {i j : Nat} (hi : i < n) (hj : j < n) {x : Shared α}
    (hx : cellElement? n upper (i, j) = some x) {key : Key}
    (hkey : Key.compare key (cellKey i j) = .eq) :
    (Container.dense (reflect n upper)).get? key = some x := by
  have hdata := getElem?_reflect hupper hi hj
  rw [hx, ← Array.getElem?_toList] at hdata
  exact (stores_reflect ha hb hupper).get?_of_getElem? (getElem?_tuples_cell ha hb hi hj) hdata hkey

/-- A key that is equal to that of no cell finds nothing. -/
theorem get?_reflect_eq_none {key : Key}
    (hkey : ∀ i j, i < n → j < n → Key.compare key (cellKey i j) ≠ .eq) :
    (Container.dense (reflect n upper)).get? key = none := by
  refine (stores_reflect ha hb hupper).missed key ?_
  rintro ⟨k, x⟩ hentry
  obtain ⟨i, j, hi, hj, rfl⟩ := exists_cell_of_mem_tuples ha hb (List.of_mem_zip hentry).1
  exact hkey i j hi hj

end LookUp

/-! ## The declaration -/

/-- A side of a symmetric matrix is the length of its index set. -/
theorem evalSet_of_hasSide [Closeness] {i : IndexSet} {params : Params} {n : Nat}
    (h : i.HasSide params n) :
    ∃ a, (Bindings.ofParams params).evalSet i.set = .ok (DenseArray.indexSet a) ∧
      (DenseArray.indexSet a).length = n := by
  obtain ⟨hi, v, a, hupper, hv, ha, rfl⟩ := h
  obtain ⟨value, hvalue, hscalar⟩ := Outcome.bind_eq_ok_iff.mp hv
  refine ⟨a, ?_, DenseArray.length_indexSet a⟩
  have hbound : Expr.asRangeBound hi value = .ok a := by
    refine Outcome.bind_eq_ok_iff.mpr ⟨v, hscalar, ?_⟩
    rw [ha]
    rfl
  have heval : i.set.eval (Bindings.ofParams params) =
      .ok (.set ((Word.interval 1 a).map .int)) := by
    -- the set is a range from one, whose lower bound cannot fail
    rw [Expr.eq_oneTo_of_oneBasedUpper? hupper, Expr.oneTo]
    simp only [Expr.eval]
    refine Outcome.bind_eq_ok_iff.mpr ⟨.scalar (.int 1), rfl, ?_⟩
    refine Outcome.bind_eq_ok_iff.mpr ⟨1, rfl, ?_⟩
    refine Outcome.bind_eq_ok_iff.mpr ⟨value, hvalue, ?_⟩
    exact Outcome.bind_eq_ok_iff.mpr ⟨a, hbound, rfl⟩
  exact Outcome.bind_eq_ok_iff.mpr ⟨_, heval, rfl⟩

/-- The declaration of a symmetric matrix is one of a dense array. -/
theorem IsSymmetric.plan [Closeness] {d : Declaration} {params : Params} {n : Nat}
    (h : d.IsSymmetric params n) (l : Label) : d.plan l = .ok ⟨d, .dense⟩ := by
  refine plan_eq_ok_iff.mpr ⟨rfl, ?_⟩
  obtain ⟨row, column, hindices, hrow, hcolumn⟩ := h.sides
  obtain ⟨hi, -, -, hupper, -⟩ := hrow
  obtain ⟨hi', -, -, hupper', -⟩ := hcolumn
  have hscalar : d.isScalar = false := by simp [isScalar, hindices]
  have hone : d.allOneBased = true := by simp [allOneBased, hindices, hupper, hupper']
  rcases h.dense with hkind | hkind
  · simp [representation, hkind, hscalar, h.unconditional, h.independent, hone]
    rfl
  · simp [representation, hkind, hscalar, h.unconditional, h.independent, checkArray, hindices, hupper,
      hupper']
    rfl

/-- The key of row `i` and column `j`, counted from one. -/
def entryKey (i j : Nat) : Key := [.int (Int64.ofNat i), .int (Int64.ofNat j)]

/-- The bindings of an entry, the column being the inner index. -/
def entryBindings (params : Params) (row column : IndexSet) (entry : Nat × Nat) : Bindings :=
  ⟨params, [(column.name, .int (Int64.ofNat entry.2)), (row.name, .int (Int64.ofNat entry.1))]⟩

/-- Takes the elements of a list one after the other, whatever the cells are. -/
def takeNext (_ : Nat × Nat) : StateT (List α) Option α
  | [] => none
  | a :: as => some (a, as)

theorem mapM_takeNext {cells : List (Nat × Nat)} {es : List α} (h : es.length = cells.length) :
    (cells.mapM takeNext).run es = some (es, []) := by
  induction cells generalizing es with
  | nil =>
    rw [List.length_eq_zero_iff.mp h]
    rfl
  | cons cell cells ih =>
    cases es with
    | nil => cases h
    | cons a es =>
      have hrest := ih (Nat.succ.inj h)
      rw [List.mapM_cons, StateT.run_bind]
      change ((cells.mapM takeNext >>= fun as => pure (a :: as)).run es) = _
      rw [StateT.run_bind, hrest]
      rfl

/-- A container that is the symmetric matrix of side `n` with the elements `es` of the entries
`entries`, shared between mirror images. -/
structure Mirrors (n : Nat) (entries : List (Nat × Nat)) (es : List α) (c : Container (Shared α)) :
    Prop where
  /-- It is a square dense array, which is filled row by row and takes up the elements. -/
  square : ∃ data, c = .dense ⟨[n, n], data⟩ ∧ data.size = n * n ∧
    (fillSquare n takeNext).run es = some (data, [])
  /-- An entry and its mirror image hold the element that was built for the upper one of them. -/
  found : ∀ i j, 1 ≤ i → i ≤ n → 1 ≤ j → j ≤ n → ∃ k a, entries[k]? = some (min i j, max i j) ∧
    es[k]? = some a ∧ ∀ key, Key.compare key (entryKey i j) = .eq → c.get? key = some ⟨k, a⟩
  missed : ∀ key, (∀ i j, 1 ≤ i → i ≤ n → 1 ≤ j → j ≤ n → Key.compare key (entryKey i j) ≠ .eq) →
    c.get? key = none

theorem mirrors_reflect {n : Nat} {a b : Int64} {upper : List α}
    (ha : (DenseArray.indexSet a).length = n) (hb : (DenseArray.indexSet b).length = n)
    (hupper : upper.length = (upperCells n).length) :
    Mirrors n (upperEntries n) upper (.dense (reflect n upper)) where
  square := by
    refine ⟨(reflect n upper).data, rfl, size_reflect hupper, ?_⟩
    rw [fillSquare_eq, StateT.run_map, mapM_takeNext hupper]
    rfl
  found i j hi hin hj hjn := by
    -- the cell counts its row and its column from zero
    obtain ⟨i, rfl⟩ := Nat.exists_eq_add_of_le' hi
    obtain ⟨j, rfl⟩ := Nat.exists_eq_add_of_le' hj
    obtain ⟨x, hx⟩ := exists_upper hupper (show min i j ≤ max i j by omega) (by omega)
    refine ⟨upperPlace n (min i j) (max i j), x, ?_, hx, ?_⟩
    · rw [upperEntries, List.getElem?_map, getElem?_upperCells (by omega) (by omega),
        Option.map_some, Nat.add_min_add_right, Nat.add_max_add_right]
    · intro key hkey
      refine get?_reflect ha hb hupper (show i < n by omega) (show j < n by omega) ?_ hkey
      rw [cellElement?, hx, Option.map_some]
  missed key hkey := by
    refine get?_reflect_eq_none ha hb hupper ?_
    intro i j hi hj
    exact hkey (i + 1) (j + 1) (by omega) (by omega) (by omega) (by omega)

namespace Mirrors

variable {n : Nat} {entries : List (Nat × Nat)} {es : List α} {c : Container (Shared α)}

/-- Mirror images are one shared element. -/
theorem get?_swap (h : Mirrors n entries es c) (hentries : IsUpperTriangle n entries) {i j : Nat}
    (hi : 1 ≤ i) (hin : i ≤ n) (hj : 1 ≤ j) (hjn : j ≤ n) :
    c.get? (entryKey i j) = c.get? (entryKey j i) := by
  obtain ⟨k, a, hk, ha, hget⟩ := h.found i j hi hin hj hjn
  obtain ⟨k', a', hk', ha', hget'⟩ := h.found j i hj hjn hi hin
  rw [Nat.min_comm, Nat.max_comm] at hk'
  obtain rfl := place_inj hentries.rowMajor hk hk'
  rw [ha] at ha'
  cases ha'
  rw [hget _ (Key.compare_self _), hget' _ (Key.compare_self _)]

/-- Two entries share an element just where they are the same entry or mirror images. -/
theorem serial_eq_iff (h : Mirrors n entries es c) (hentries : IsUpperTriangle n entries)
    {i j i' j' : Nat} (hi : 1 ≤ i) (hin : i ≤ n) (hj : 1 ≤ j) (hjn : j ≤ n) (hi' : 1 ≤ i')
    (hin' : i' ≤ n) (hj' : 1 ≤ j') (hjn' : j' ≤ n) {x y : Shared α}
    (hx : c.get? (entryKey i j) = some x) (hy : c.get? (entryKey i' j') = some y) :
    x.serial = y.serial ↔ (i = i' ∧ j = j') ∨ (i = j' ∧ j = i') := by
  obtain ⟨k, a, hk, -, hget⟩ := h.found i j hi hin hj hjn
  obtain ⟨k', a', hk', -, hget'⟩ := h.found i' j' hi' hin' hj' hjn'
  rw [hget _ (Key.compare_self _), Option.some.injEq] at hx
  rw [hget' _ (Key.compare_self _), Option.some.injEq] at hy
  subst hx hy
  have hpair : (min i j, max i j) = (min i' j', max i' j') ↔
      (i = i' ∧ j = j') ∨ (i = j' ∧ j = i') := by
    rw [Prod.mk.injEq]
    omega
  rw [← hpair]
  constructor
  · -- at one place of the list stands one entry
    rintro (rfl : k = k')
    rw [hk] at hk'
    exact Option.some.inj hk'
  · intro heq
    rw [← heq] at hk'
    exact place_inj hentries.rowMajor hk hk'

end Mirrors

/-- Every side is the number of a 64-bit integer. -/
theorem lt_of_hasSide [Closeness] {i : IndexSet} {params : Params} {n : Nat}
    (h : i.HasSide params n) : n < 2 ^ 63 := by
  obtain ⟨hi, v, k, -, -, -, rfl⟩ := h
  have hk := k.toInt_lt
  omega

/-- The bindings of the calls are those of the entries on and above the diagonal. -/
theorem upperBindings_eq {d : Declaration} {row column : IndexSet}
    (h : d.indices = [row, column]) (params : Params) (n : Nat) :
    d.upperBindings params n = (upperEntries n).map (entryBindings params row column) := by
  rw [upperBindings, upperEntries, List.map_map]
  apply List.map_congr_left
  rintro ⟨i, j⟩ -
  change d.bindingsAt params (cellKey i j) = entryBindings params row column (i + 1, j + 1)
  rw [bindingsAt, indexNames, h]
  rfl

/-- A symmetric matrix that is built has one call for each entry on and above the diagonal, row by
row, whose element both this entry and its mirror image hold, and no other entries share. Its side
is that of both axes of the dense array that the declaration describes otherwise. -/
theorem populateSymmetric_shares [Closeness] {d : Declaration} {l : Label} {params : Params}
    {build : Builder σ α} {n : Nat} {s s' : σ} {c : Container (Shared α)}
    (hsize : d.symmetricSize l params = .ok n)
    (hrun : (d.populateSymmetric l params build).exec s = (.ok c, s')) :
    ∃ row column entries es,
      d.indices = [row, column] ∧ n < 2 ^ 63 ∧
      IsUpperTriangle n entries ∧ entries.length = n * (n + 1) / 2 ∧
      entries.length = es.length ∧
      d.symmetricCalls l params build s =
        List.zipWith (fun entry a => ⟨entryBindings params row column entry, .ok a⟩) entries es ∧
      Mirrors n entries es c ∧
      (∀ i j, 1 ≤ i → i ≤ n → 1 ≤ j → j ≤ n →
        c.get? (entryKey i j) = c.get? (entryKey j i)) ∧
      (∀ i j i' j', 1 ≤ i → i ≤ n → 1 ≤ j → j ≤ n → 1 ≤ i' → i' ≤ n → 1 ≤ j' → j' ≤ n →
        ∀ x y, c.get? (entryKey i j) = some x → c.get? (entryKey i' j') = some y →
          (x.serial = y.serial ↔ (i = i' ∧ j = j') ∨ (i = j' ∧ j = i'))) ∧
      (∀ l', d.plan l' = .ok ⟨d, .dense⟩) ∧
      ∃ rows columns, d.evalAxes params = .ok [rows, columns] ∧
        rows.length = n ∧ columns.length = n := by
  have hsymmetric := symmetricSize_eq_ok_iff.mp hsize
  -- both index sets are those of dense dimensions of length `n`
  obtain ⟨row, column, hindices, hrow, hcolumn⟩ := hsymmetric.sides
  obtain ⟨a, hrows, ha⟩ := evalSet_of_hasSide hrow
  obtain ⟨b, hcolumns, hb⟩ := evalSet_of_hasSide hcolumn
  rw [exec_populateSymmetric, hsize] at hrun
  obtain ⟨es, hes, rfl⟩ := Outcome.map_eq_ok_iff.mp (congrArg Prod.fst hrun)
  obtain ⟨hlength, hcalls⟩ := Builder.runAll_of_outcome_eq_ok hes
  rw [upperBindings_eq hindices, List.length_map] at hlength
  -- all calls succeeded, so the whole upper triangle was built
  have hupper : es.length = (upperCells n).length := by
    rw [← hlength, upperEntries, List.length_map]
  have htriangle := isUpperTriangle_upperEntries n
  have hmirrors := mirrors_reflect ha hb hupper
  refine ⟨row, column, upperEntries n, es, hindices, lt_of_hasSide hrow, htriangle,
    length_upperEntries n, hlength, ?_, hmirrors, ?_, ?_, hsymmetric.plan, ?_⟩
  · rw [symmetricCalls_eq, hsize]
    dsimp only
    rw [hcalls, upperBindings_eq hindices, List.zipWith_map_left]
  · intro i j hi hin hj hjn
    exact hmirrors.get?_swap htriangle hi hin hj hjn
  · intro i j i' j' hi hin hj hjn hi' hin' hj' hjn' x y hx hy
    exact hmirrors.serial_eq_iff htriangle hi hin hj hjn hi' hin' hj' hjn' hx hy
  · refine ⟨_, _, ?_, ha, hb⟩
    rw [evalAxes, indexSets, hindices]
    simp [hrows, hcolumns]
    rfl

/-- A matrix of side `2` whose elements are built by a counter. -/
theorem populateSymmetric_shares_counter :
    let index (n : String) : IndexSet := ⟨⟨n⟩, .oneTo (.var ⟨"N"⟩)⟩
    let d : Declaration := ⟨none, [index "i", index "j"], none, .auto⟩
    let params : Params := ⟨[(⟨"N"⟩, .scalar (.int 2))]⟩
    let build : Builder Nat Nat := fun _ => ExceptT.mk fun n => (.ok (10 * n), n + 1)
    let c : Container (Shared Nat) := .dense ⟨[2, 2], #[⟨0, 0⟩, ⟨1, 10⟩, ⟨1, 10⟩, ⟨2, 20⟩]⟩
    d.symmetricSize ⟨"x"⟩ params = .ok 2 ∧
      (d.populateSymmetric ⟨"x"⟩ params build).exec 0 = (.ok c, 3) ∧
      (∀ i j, 1 ≤ i → i ≤ 2 → 1 ≤ j → j ≤ 2 →
        c.get? (entryKey i j) = c.get? (entryKey j i)) ∧
      ∃ entries es, entries.length = 3 ∧ IsUpperTriangle 2 entries ∧ Mirrors 2 entries es c := by
  intro index d params build c
  have hside (n : String) : (index n).HasSide params 2 := ⟨_, _, 2, rfl, rfl, rfl, rfl⟩
  have hsize : d.symmetricSize ⟨"x"⟩ params = .ok 2 :=
    symmetricSize_eq_ok_iff.mpr ⟨rfl, ⟨_, _, rfl, hside "i", hside "j"⟩, by decide, .inl rfl⟩
  have hrun : (d.populateSymmetric ⟨"x"⟩ params build).exec 0 = (.ok c, 3) := by
    rw [exec_populateSymmetric, hsize]
    rfl
  obtain ⟨-, -, entries, es, -, -, htriangle, hlength, -, -, hmirrors, hswap, -⟩ :=
    populateSymmetric_shares hsize hrun
  exact ⟨hsize, hrun, hswap, entries, es, hlength, htriangle, hmirrors⟩

end Declaration

end AlgebraicModel
