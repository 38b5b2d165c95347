import AlgebraicModel.Expr.Names
import Mathlib.Tactic.Tauto

/-!
# The names of an expression

Two ways to ask for the names of an expression agree: the set that `Expr.names` collects and the
test `Expr.mentions` (`mem_names_iff`). The search for a dependency finds nothing exactly when no
index set mentions an index declared before it (`firstDependency?_eq_none_iff`).
-/

set_option autoImplicit false

namespace AlgebraicModel

namespace Name

instance instTransOrd : Std.TransOrd Name where
  eq_swap := by
    rintro ⟨s⟩ ⟨t⟩
    have hswap : compare s t = (compare t s).swap := Std.OrientedCmp.eq_swap
    exact hswap
  isLE_trans := by
    rintro ⟨s⟩ ⟨t⟩ ⟨u⟩ hst htu
    have htrans : (compare s t).isLE → (compare t u).isLE → (compare s u).isLE :=
      Std.TransCmp.isLE_trans
    exact htrans hst htu

instance instLawfulEqOrd : Std.LawfulEqOrd Name where
  eq_of_compare := by
    rintro ⟨s⟩ ⟨t⟩ h
    have hst : compare s t = .eq → s = t := Std.LawfulEqCmp.eq_of_compare
    rw [hst h]

end Name

namespace Expr

mutual

theorem mem_addNames_iff {n : Name} : ∀ (e : Expr) (s : NameSet),
    n ∈ e.addNames s ↔ e.mentions n = true ∨ n ∈ s
  | const _, s => by simp [addNames, mentions]
  | var m, s => by simp [addNames, mentions]
  | range lo hi, s => by
      rw [addNames, mem_addNames_iff hi, mem_addNames_iff lo, mentions, Bool.or_eq_true]
      tauto
  | collection elements, s => mem_addAllNames_iff elements s
  | app _ args, s => mem_addAllNames_iff args s
  | unary _ e, s => mem_addNames_iff e s
  | binary _ l r, s => by
      rw [addNames, mem_addNames_iff r, mem_addNames_iff l, mentions, Bool.or_eq_true]
      tauto
  | ite c t f, s => by
      rw [addNames, mem_addNames_iff f, mem_addNames_iff t, mem_addNames_iff c, mentions,
        Bool.or_eq_true, Bool.or_eq_true]
      tauto

theorem mem_addAllNames_iff {n : Name} : ∀ (es : List Expr) (s : NameSet),
    n ∈ addAllNames es s ↔ anyMentions n es = true ∨ n ∈ s
  | [], s => by simp [addAllNames, anyMentions]
  | e :: es, s => by
      rw [addAllNames, mem_addAllNames_iff es, mem_addNames_iff e, anyMentions, Bool.or_eq_true]
      tauto

end

/-- The set of names holds what the expression mentions. -/
theorem mem_names_iff {n : Name} {e : Expr} : n ∈ e.names ↔ e.mentions n = true := by
  simp [names, mem_addNames_iff]

theorem contains_names (e : Expr) (n : Name) : e.names.contains n = e.mentions n := by
  rw [Bool.eq_iff_iff, ← Std.TreeSet.mem_iff_contains, mem_names_iff]

end Expr

/-! ## Dependencies -/

/-- Nothing is found when no set mentions an index declared before it. -/
theorem firstDependency?_eq_none_iff {vars : List Name} {sets : List Expr} :
    firstDependency? vars sets = none ↔
      ∀ i e, sets[i]? = some e → ∀ n ∈ vars.take i, e.mentions n = false := by
  have hset (e : Expr) (i : Nat) :
      ((vars.take i).findIdx? e.names.contains).map (fun j => (i, j)) = none ↔
        ∀ n ∈ vars.take i, e.mentions n = false := by
    rw [Option.map_eq_none_iff, List.findIdx?_eq_none_iff]
    simp only [Expr.contains_names]
  rw [firstDependency?, List.findSome?_eq_none_iff]
  constructor
  · intro h i e he n hn
    -- the first set has no index before it
    cases i with
    | zero => cases hn
    | succ i =>
      refine (hset e (i + 1)).mp (h (e, i + 1) ?_) n hn
      rw [List.mem_iff_getElem?]
      exact ⟨i, by simp [Nat.add_comm 1, he]⟩
  · rintro h ⟨e, i⟩ hei
    have hi : sets[i]? = some e := List.mem_zipIdx_iff_getElem?.mp (List.mem_of_mem_drop hei)
    exact (hset e i).mpr (h i e hi)

/-- What is found are the positions of two dimensions, the second one before the first. -/
theorem lt_of_firstDependency? {vars : List Name} {sets : List Expr} {i j : Nat}
    (h : firstDependency? vars sets = some (i, j)) :
    i < sets.length ∧ j < i ∧ j < vars.length := by
  obtain ⟨⟨e, i'⟩, hei, hj⟩ := List.exists_of_findSome?_eq_some h
  obtain ⟨j', hj', heq⟩ := Option.map_eq_some_iff.mp hj
  cases heq
  have hi : sets[i]? = some e := List.mem_zipIdx_iff_getElem?.mp (List.mem_of_mem_drop hei)
  -- the index was searched for among those before the set
  obtain ⟨hlt, -⟩ := List.findIdx?_eq_some_iff_getElem.mp hj'
  rw [List.length_take] at hlt
  exact ⟨(List.getElem?_eq_some_iff.mp hi).1, by omega, by omega⟩

end AlgebraicModel
