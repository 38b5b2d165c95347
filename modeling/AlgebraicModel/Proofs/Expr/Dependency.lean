import AlgebraicModel.Proofs.Expr.Names

/-!
# The search for dependencies

An index set depends on an index when the name of the index occurs in it, and this matters for an
index that is declared before the set.

`Name.OccursIn` says where a name can occur in an expression, a constructor for each place.
`Expr.mentions_iff_occursIn` ties the test for a name to it. `DependsAt` is a dependency between two
positions, `IsFirstDependency` the least one, by the set and then by the index.
`firstDependency?_eq_some_iff` and `firstDependency?_eq_none_iff_not_dependsAt` say that the search
finds that one if there is any, and `dependency_search_exact` collects what is proved.
-/

set_option autoImplicit false

namespace AlgebraicModel

/-! ## Occurrences -/

/-- The name stands somewhere in an expression as a reference. The name of a built-in function does
not count, its arguments do. -/
inductive Name.OccursIn (n : Name) : Expr → Prop
  | var : OccursIn n (.var n)
  | low {lo hi : Expr} (h : OccursIn n lo) : OccursIn n (.range lo hi)
  | high {lo hi : Expr} (h : OccursIn n hi) : OccursIn n (.range lo hi)
  | element {elements : List Expr} {e : Expr} (he : e ∈ elements) (h : OccursIn n e) :
      OccursIn n (.collection elements)
  | argument {f : Name} {args : List Expr} {e : Expr} (he : e ∈ args) (h : OccursIn n e) :
      OccursIn n (.app f args)
  | operand {op : UnaryOp} {e : Expr} (h : OccursIn n e) : OccursIn n (.unary op e)
  | left {op : BinaryOp} {l r : Expr} (h : OccursIn n l) : OccursIn n (.binary op l r)
  | right {op : BinaryOp} {l r : Expr} (h : OccursIn n r) : OccursIn n (.binary op l r)
  | condition {c t f : Expr} (h : OccursIn n c) : OccursIn n (.ite c t f)
  | consequent {c t f : Expr} (h : OccursIn n t) : OccursIn n (.ite c t f)
  | alternative {c t f : Expr} (h : OccursIn n f) : OccursIn n (.ite c t f)

namespace Expr

theorem anyMentions_iff {n : Name} {es : List Expr} :
    anyMentions n es = true ↔ ∃ e ∈ es, e.mentions n = true := by
  induction es with
  | nil => simp [anyMentions]
  | cons e es ih => simp [anyMentions, ih]

theorem mentions_of_occursIn {n : Name} {e : Expr} (h : n.OccursIn e) : e.mentions n = true := by
  induction h with
  | var => exact beq_self_eq_true n
  | low _ ih => rw [mentions, ih, Bool.true_or]
  | high _ ih => rw [mentions, ih, Bool.or_true]
  | element he _ ih => exact anyMentions_iff.mpr ⟨_, he, ih⟩
  | argument he _ ih => exact anyMentions_iff.mpr ⟨_, he, ih⟩
  | operand _ ih => exact ih
  | left _ ih => rw [mentions, ih, Bool.true_or]
  | right _ ih => rw [mentions, ih, Bool.or_true]
  | condition _ ih => rw [mentions, ih, Bool.true_or, Bool.true_or]
  | consequent _ ih => rw [mentions, ih, Bool.or_true, Bool.true_or]
  | alternative _ ih => rw [mentions, ih, Bool.or_true]

mutual

theorem occursIn_of_mentions {n : Name} : ∀ e : Expr, e.mentions n = true → n.OccursIn e
  | const _, h => by cases h
  | var m, h => by
      obtain rfl : m = n := beq_iff_eq.mp h
      exact .var
  | range lo hi, h => by
      rw [mentions, Bool.or_eq_true] at h
      rcases h with h | h
      · exact .low (occursIn_of_mentions lo h)
      · exact .high (occursIn_of_mentions hi h)
  | collection elements, h => by
      obtain ⟨e, he, h⟩ := exists_occursIn_of_anyMentions elements h
      exact .element he h
  | app _ args, h => by
      obtain ⟨e, he, h⟩ := exists_occursIn_of_anyMentions args h
      exact .argument he h
  | unary _ e, h => .operand (occursIn_of_mentions e h)
  | binary _ l r, h => by
      rw [mentions, Bool.or_eq_true] at h
      rcases h with h | h
      · exact .left (occursIn_of_mentions l h)
      · exact .right (occursIn_of_mentions r h)
  | ite c t f, h => by
      rw [mentions, Bool.or_eq_true, Bool.or_eq_true] at h
      rcases h with (h | h) | h
      · exact .condition (occursIn_of_mentions c h)
      · exact .consequent (occursIn_of_mentions t h)
      · exact .alternative (occursIn_of_mentions f h)

theorem exists_occursIn_of_anyMentions {n : Name} :
    ∀ es : List Expr, anyMentions n es = true → ∃ e ∈ es, n.OccursIn e
  | [], h => by cases h
  | e :: es, h => by
      rw [anyMentions, Bool.or_eq_true] at h
      rcases h with h | h
      · exact ⟨e, List.mem_cons_self, occursIn_of_mentions e h⟩
      · obtain ⟨e', he', h⟩ := exists_occursIn_of_anyMentions es h
        exact ⟨e', List.mem_cons_of_mem e he', h⟩

end

/-- The test for a name finds every occurrence of it. -/
theorem mentions_iff_occursIn {n : Name} {e : Expr} : e.mentions n = true ↔ n.OccursIn e :=
  ⟨occursIn_of_mentions e, mentions_of_occursIn⟩

end Expr

/-! ## Dependencies between positions -/

/-- The set at position `i` mentions the index at position `j`, which is declared before it. -/
def DependsAt (vars : List Name) (sets : List Expr) (i j : Nat) : Prop :=
  j < i ∧ ∃ e n, sets[i]? = some e ∧ vars[j]? = some n ∧ e.mentions n = true

/-- There is a dependency between the two positions and no other one before it: none of an earlier
set, and none of this set on an earlier index. -/
structure IsFirstDependency (vars : List Name) (sets : List Expr) (i j : Nat) : Prop where
  depends : DependsAt vars sets i j
  least : ∀ i' j', DependsAt vars sets i' j' → i < i' ∨ i = i' ∧ j ≤ j'

variable {vars : List Name} {sets : List Expr}

theorem IsFirstDependency.unique {i j i' j' : Nat} (h : IsFirstDependency vars sets i j)
    (h' : IsFirstDependency vars sets i' j') : i = i' ∧ j = j' := by
  have hle := h.least i' j' h'.depends
  have hge := h'.least i j h.depends
  omega

theorem mem_take_of_lt {i j : Nat} {n : Name} (hji : j < i) (hn : vars[j]? = some n) :
    n ∈ vars.take i := by
  apply List.mem_of_getElem? (i := j)
  rw [List.getElem?_take_of_lt hji, hn]

theorem firstDependency?_eq_none_iff_not_dependsAt :
    firstDependency? vars sets = none ↔ ¬ ∃ i j, DependsAt vars sets i j := by
  rw [firstDependency?_eq_none_iff]
  constructor
  · rintro h ⟨i, j, hji, e, n, he, hn, hmentions⟩
    rw [h i e he n (mem_take_of_lt hji hn)] at hmentions
    cases hmentions
  · intro h i e he n hn
    obtain ⟨j, hj⟩ := List.mem_iff_getElem?.mp hn
    -- a position in the part before the set is one before the set
    have hji : j < i := by
      have hlt := (List.getElem?_eq_some_iff.mp hj).1
      rw [List.length_take] at hlt
      omega
    rw [List.getElem?_take_of_lt hji] at hj
    apply Bool.eq_false_iff.mpr
    intro hmentions
    exact h ⟨i, j, hji, e, n, he, hj, hmentions⟩

/-- In one set the search finds the first index before it that the set mentions. -/
theorem findIdx?_take_eq_some_iff {e : Expr} {i j : Nat} :
    (vars.take i).findIdx? e.names.contains = some j ↔
      (j < i ∧ ∃ n, vars[j]? = some n ∧ e.mentions n = true) ∧
        ∀ j' < j, ∀ n, vars[j']? = some n → e.mentions n = false := by
  rw [List.findIdx?_eq_some_iff_getElem]
  simp only [Expr.contains_names, List.length_take, List.getElem_take]
  constructor
  · rintro ⟨hj, hmentions, hbefore⟩
    refine ⟨⟨by omega, vars[j], List.getElem?_eq_getElem _, hmentions⟩, ?_⟩
    intro j' hj' n hn
    obtain ⟨hlt, rfl⟩ := List.getElem?_eq_some_iff.mp hn
    exact Bool.eq_false_iff.mpr (hbefore j' hj')
  · rintro ⟨⟨hji, n, hn, hmentions⟩, hbefore⟩
    obtain ⟨hlt, rfl⟩ := List.getElem?_eq_some_iff.mp hn
    refine ⟨by omega, hmentions, ?_⟩
    intro j' hj'
    exact Bool.eq_false_iff.mp (hbefore j' hj' _ (List.getElem?_eq_getElem (by omega)))

/-- The search stops at the first set in which it finds an index. -/
theorem exists_of_firstDependency? {i j : Nat} (h : firstDependency? vars sets = some (i, j)) :
    (∃ e, sets[i]? = some e ∧ (vars.take i).findIdx? e.names.contains = some j) ∧
      ∀ i' e, 0 < i' → i' < i → sets[i']? = some e →
        (vars.take i').findIdx? e.names.contains = none := by
  rw [firstDependency?, List.findSome?_eq_some_iff] at h
  obtain ⟨before, ⟨e, i₁⟩, after, hsplit, hfound, hbefore⟩ := h
  obtain ⟨j₁, hj₁, heq⟩ := Option.map_eq_some_iff.mp hfound
  cases heq
  -- what is searched are the sets from the second one on, each with its position
  have hat (k : Nat) : (before ++ (e, i) :: after)[k]? = sets[k + 1]?.map fun e' => (e', k + 1) := by
    rw [← hsplit, List.getElem?_drop, List.getElem?_zipIdx, Nat.add_comm 1, Nat.zero_add]
  have hhere : some (e, i) = sets[before.length + 1]?.map fun e' => (e', before.length + 1) := by
    rw [← hat, List.getElem?_append_right (Nat.le_refl _), Nat.sub_self]
    rfl
  obtain ⟨e', he', heq⟩ := Option.map_eq_some_iff.mp hhere.symm
  cases heq
  refine ⟨⟨e, he', hj₁⟩, ?_⟩
  intro i' e' hpos hlt he'
  obtain ⟨k, rfl⟩ : ∃ k, i' = k + 1 := ⟨i' - 1, by omega⟩
  have hk := hat k
  rw [List.getElem?_append_left (by omega), he'] at hk
  -- so an earlier set is among those that were searched in vain
  exact Option.map_eq_none_iff.mp (hbefore (e', k + 1) (List.mem_of_getElem? hk))

theorem isFirstDependency_of_firstDependency? {i j : Nat}
    (h : firstDependency? vars sets = some (i, j)) : IsFirstDependency vars sets i j := by
  obtain ⟨⟨e, he, hj⟩, hearlier⟩ := exists_of_firstDependency? h
  obtain ⟨⟨hji, n, hn, hmentions⟩, hbefore⟩ := findIdx?_take_eq_some_iff.mp hj
  refine ⟨⟨hji, e, n, he, hn, hmentions⟩, ?_⟩
  rintro i' j' ⟨hji', e', n', he', hn', hmentions'⟩
  rcases Nat.lt_trichotomy i i' with hlt | rfl | hgt
  · exact .inl hlt
  · -- in the set that was found, the index is the first one
    refine .inr ⟨rfl, Nat.le_of_not_lt fun hlt => ?_⟩
    obtain rfl : e = e' := Option.some.inj (he.symm.trans he')
    rw [hbefore j' hlt n' hn'] at hmentions'
    cases hmentions'
  · -- an earlier set has no dependency
    have hnone := hearlier i' e' (by omega) hgt he'
    have hfalse := List.findIdx?_eq_none_iff.mp hnone n' (mem_take_of_lt hji' hn')
    rw [Expr.contains_names, hmentions'] at hfalse
    cases hfalse

/-- The search finds the first dependency. -/
theorem firstDependency?_eq_some_iff {i j : Nat} :
    firstDependency? vars sets = some (i, j) ↔ IsFirstDependency vars sets i j := by
  constructor
  · exact isFirstDependency_of_firstDependency?
  · intro h
    cases hfound : firstDependency? vars sets with
    | none =>
      have hnone := firstDependency?_eq_none_iff_not_dependsAt.mp hfound
      exact absurd ⟨i, j, h.depends⟩ hnone
    | some found =>
      -- there is only one first dependency
      obtain ⟨rfl, rfl⟩ := h.unique (isFirstDependency_of_firstDependency? hfound)
      rfl

/-- The search for dependencies is exact. The test for a name, the set of names and the occurrences
of names in an expression agree. Of the dependencies between positions the search finds the first
one, and nothing if there is none. -/
theorem dependency_search_exact :
    (∀ (e : Expr) (n : Name),
      (e.mentions n = true ↔ n ∈ e.names) ∧ (e.mentions n = true ↔ n.OccursIn e)) ∧
      ∀ (vars : List Name) (sets : List Expr),
        (∀ i j, firstDependency? vars sets = some (i, j) ↔ IsFirstDependency vars sets i j) ∧
          (firstDependency? vars sets = none ↔ ¬ ∃ i j, DependsAt vars sets i j) ∧
            (hasDependentSets vars sets = true ↔ ∃ i j, DependsAt vars sets i j) := by
  refine ⟨fun e n => ⟨Expr.mem_names_iff.symm, Expr.mentions_iff_occursIn⟩, fun vars sets => ?_⟩
  have hnone : firstDependency? vars sets = none ↔ ¬ ∃ i j, DependsAt vars sets i j :=
    firstDependency?_eq_none_iff_not_dependsAt
  refine ⟨fun i j => firstDependency?_eq_some_iff, hnone, ?_⟩
  rw [hasDependentSets, Option.isSome_iff_ne_none, Ne, hnone, not_not]

/-- A set may mention its own index and a later one. -/
example : hasDependentSets [⟨"i"⟩, ⟨"j"⟩] [.oneTo (.var ⟨"j"⟩), .oneTo (.var ⟨"j"⟩)] = false := by
  decide +kernel

end AlgebraicModel
