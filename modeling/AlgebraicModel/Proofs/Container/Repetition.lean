import AlgebraicModel.Proofs.Container.Lookup

/-!
# The first repetition

An axis refuses the first of its elements that is equal to an earlier one, and so does a map with
its keys. Both walk along their list with a table of the identities that they have seen, and stop at
the first one that is there already (`FirstSeen`). Identities stand for places, so what they stop at
is the first repetition in the order of values and of keys (`Axis.ofList_eq_error_iff`,
`Key.firstRepeat?_eq_some_iff`).
-/

set_option autoImplicit false

namespace AlgebraicModel

variable {β ι : Type}

/-- The entry is the first one of the list that is equal to an earlier one. -/
def FirstRepeat (cmp : β → β → Ordering) (xs : List β) (x : β) : Prop :=
  ∃ before after, xs = before ++ x :: after ∧ (before.Pairwise fun y z => cmp y z ≠ .eq) ∧
    ∃ y ∈ before, cmp y x = .eq

/-! ## Walks along a list -/

/-- The entry is the first one whose mark is among those seen before the list or in it. -/
inductive FirstSeen (mark : β → ι) : (ι → Prop) → List β → β → Prop
  | here {seen : ι → Prop} {x : β} {xs : List β} (h : seen (mark x)) :
      FirstSeen mark seen (x :: xs) x
  | later {seen : ι → Prop} {y x : β} {xs : List β} (hy : ¬ seen (mark y))
      (h : FirstSeen mark (fun i => seen i ∨ i = mark y) xs x) : FirstSeen mark seen (y :: xs) x

theorem not_firstSeen_nil {mark : β → ι} {seen : ι → Prop} {x : β} :
    ¬ FirstSeen mark seen [] x := by
  intro h
  cases h

theorem firstSeen_cons_of_seen {mark : β → ι} {seen : ι → Prop} {y x : β} {xs : List β}
    (hy : seen (mark y)) : FirstSeen mark seen (y :: xs) x ↔ y = x := by
  constructor
  · intro h
    cases h with
    | here _ => rfl
    | later hnew _ => exact absurd hy hnew
  · rintro rfl
    exact .here hy

theorem firstSeen_cons_of_new {mark : β → ι} {seen : ι → Prop} {y x : β} {xs : List β}
    (hy : ¬ seen (mark y)) :
    FirstSeen mark seen (y :: xs) x ↔ FirstSeen mark (fun i => seen i ∨ i = mark y) xs x := by
  constructor
  · intro h
    cases h with
    | here hseen => exact absurd hseen hy
    | later _ h => exact h
  · intro h
    exact .later hy h

/-- Up to the first entry with a mark that was seen, the marks are new and different. -/
theorem firstSeen_iff {mark : β → ι} {seen : ι → Prop} {xs : List β} {x : β} :
    FirstSeen mark seen xs x ↔ ∃ before after, xs = before ++ x :: after ∧
      (∀ y ∈ before, ¬ seen (mark y)) ∧ (before.Pairwise fun y z => mark y ≠ mark z) ∧
      (seen (mark x) ∨ ∃ y ∈ before, mark y = mark x) := by
  constructor
  · intro h
    induction h with
    | @here seen x xs hx => exact ⟨[], xs, rfl, by simp, .nil, .inl hx⟩
    | @later seen y x xs hy _ ih =>
      obtain ⟨before, after, rfl, hnew, hdistinct, hx⟩ := ih
      refine ⟨y :: before, after, rfl, ?_, ?_, ?_⟩
      · refine List.forall_mem_cons.mpr ⟨hy, ?_⟩
        intro z hz hseen
        exact hnew z hz (.inl hseen)
      · refine List.pairwise_cons.mpr ⟨?_, hdistinct⟩
        intro z hz heq
        exact hnew z hz (.inr heq.symm)
      · rcases hx with (hx | hx) | ⟨z, hz, hzx⟩
        · exact .inl hx
        · exact .inr ⟨y, List.mem_cons_self, hx.symm⟩
        · exact .inr ⟨z, List.mem_cons_of_mem y hz, hzx⟩
  · rintro ⟨before, after, rfl, hnew, hdistinct, hx⟩
    -- along the part before the entry, with one mark more seen at each step
    induction before generalizing seen with
    | nil =>
      rcases hx with hx | ⟨y, hy, -⟩
      · exact .here hx
      · cases hy
    | cons y before ih =>
      obtain ⟨hy, hnew⟩ := List.forall_mem_cons.mp hnew
      obtain ⟨hdiffers, hdistinct⟩ := List.pairwise_cons.mp hdistinct
      refine .later hy (ih ?_ hdistinct ?_)
      · rintro z hz (hseen | heq)
        · exact hnew z hz hseen
        · exact hdiffers z hz heq.symm
      · rcases hx with hx | ⟨z, hz, hzx⟩
        · exact .inl (.inl hx)
        · rcases List.mem_cons.mp hz with rfl | hz
          · exact .inl (.inr hzx.symm)
          · exact .inr ⟨z, hz, hzx⟩

/-- Where marks stand for places and none was seen before, this is the first repetition. -/
theorem firstSeen_iff_firstRepeat {mark : β → ι} {cmp : β → β → Ordering}
    (hmark : ∀ y z, mark y = mark z ↔ cmp y z = .eq) {xs : List β} {x : β} :
    FirstSeen mark (fun _ => False) xs x ↔ FirstRepeat cmp xs x := by
  rw [firstSeen_iff, FirstRepeat]
  simp [hmark]

/-! ## Axes -/

namespace Axis

/-- The walk along the elements of an axis stops at the first one whose identity was seen. -/
theorem tabulate_eq_error_iff {table : PositionTable} {i : Nat} {vs : List IndexValue}
    {v : IndexValue} :
    tabulate table i vs = .error v ↔
      FirstSeen IndexValue.identity (fun id => table.contains id = true) vs v := by
  induction vs generalizing table i with
  | nil => exact iff_of_false (fun h => by cases h) not_firstSeen_nil
  | cons w vs ih =>
    have hseen : (fun id => (table.insert w.identity i).contains id = true) =
        fun id => table.contains id = true ∨ id = w.identity := by
      funext id
      rw [Std.TreeMap.contains_insert, Bool.or_eq_true, beq_iff_eq,
        Std.LawfulEqCmp.compare_eq_iff_eq, or_comm, eq_comm (a := id)]
    rw [tabulate]
    by_cases hw : table.contains w.identity = true
    · rw [if_pos hw, firstSeen_cons_of_seen hw, Except.error.injEq]
    · rw [if_neg hw, ih, hseen, firstSeen_cons_of_new hw]

/-- A list has no axis exactly when it has a repetition, and the first one is what is reported. -/
theorem ofList_eq_error_iff {vs : List IndexValue} {v : IndexValue} :
    ofList vs = .error v ↔ FirstRepeat IndexValue.compare vs v := by
  have hmap : ofList vs = .error v ↔ tabulate ∅ 0 vs = .error v := by
    rw [ofList]
    cases tabulate ∅ 0 vs with
    | error w => simp [Except.map]
    | ok table => simp [Except.map]
  have hempty : (fun id => (∅ : PositionTable).contains id = true) = fun _ => False := by
    funext id
    simp
  rw [hmap, tabulate_eq_error_iff, hempty]
  exact firstSeen_iff_firstRepeat fun _ _ => IndexValue.identity_eq_iff

end Axis

/-! ## Keys -/

namespace Key

/-- The walk along a list of keys stops at the first one whose identity was seen. -/
theorem firstRepeatAfter?_eq_some_iff {seen : Seen} {ks : List Key} {k : Key} :
    firstRepeatAfter? seen ks = some k ↔
      FirstSeen identity (fun id => seen.contains id = true) ks k := by
  induction ks generalizing seen with
  | nil => exact iff_of_false (fun h => by cases h) not_firstSeen_nil
  | cons k' ks ih =>
    have hseen : (fun id => (seen.insert k'.identity).contains id = true) =
        fun id => seen.contains id = true ∨ id = k'.identity := by
      funext id
      rw [Std.TreeSet.contains_insert, Bool.or_eq_true, beq_iff_eq,
        Std.LawfulEqCmp.compare_eq_iff_eq, or_comm, eq_comm (a := id)]
    rw [firstRepeatAfter?]
    by_cases hk : seen.contains k'.identity = true
    · rw [if_pos hk, firstSeen_cons_of_seen hk, Option.some.injEq]
    · rw [if_neg hk, ih, hseen, firstSeen_cons_of_new hk]

/-- The key that is found is the first repetition of the list. -/
theorem firstRepeat?_eq_some_iff {ks : List Key} {k : Key} :
    firstRepeat? ks = some k ↔ FirstRepeat compare ks k := by
  have hempty : (fun id => (∅ : Seen).contains id = true) = fun _ => False := by
    funext id
    simp
  rw [firstRepeat?, firstRepeatAfter?_eq_some_iff, hempty]
  exact firstSeen_iff_firstRepeat fun _ _ => identity_eq_iff

end Key

end AlgebraicModel
