import AlgebraicModel.Population.Symmetric
import AlgebraicModel.Proofs.Population.Contents

/-!
# What can be wrong before anything is built

A population lays out its keys before it builds, and this can fail for a few reasons only
(`Plan.Fault`). An array evaluates each of its sets on its own, and an axis array has no element
twice in a set. A map runs through nested loops, where a set is evaluated under the bindings of the
loops around it; `Reached` says which bindings a loop is entered with, so that a failure behind the
last pass of the outermost loop counts like any other (`fails_enumerate_iff`). A symmetric matrix
has conditions of its own on the declaration (`Declaration.IsSymmetric`). In each case there are
keys exactly when nothing is wrong (`Plan.fails_layout_iff`, `Declaration.symmetricSize_eq_ok_iff`).
-/

set_option autoImplicit false

namespace AlgebraicModel

variable [Closeness]

open Outcome (Fails)

/-! ## Nested loops -/

/-- The loops that are left, and the bindings there, when nested loops have been entered. -/
inductive Reached : List IndexSet → Bindings → List IndexSet → Bindings → Prop
  | here {is : List IndexSet} {b : Bindings} : Reached is b is b
  | inside {i : IndexSet} {is rest : List IndexSet} {b b' : Bindings} {vs : List IndexValue}
      {v : IndexValue} (hset : b.evalSet i.set = .ok vs) (hv : v ∈ vs)
      (h : Reached is (b.push i.name v) rest b') : Reached (i :: is) b rest b'

/-- The loops that are left cannot go on: the set of the next one cannot be evaluated or, where none
is left, the condition cannot be. -/
def Stuck (filter : Option Expr) : List IndexSet → Bindings → Prop
  | [], b => Fails (b.meets filter)
  | i :: _, b => Fails (b.evalSet i.set)

theorem fails_enumerate_nil_iff {filter : Option Expr} {b : Bindings} :
    Fails (enumerate filter [] b) ↔ Fails (b.meets filter) := by
  rw [enumerate, Outcome.fails_bind_iff]
  constructor
  · rintro (h | ⟨holds, -, h⟩)
    · exact h
    · cases holds <;> exact absurd h (Outcome.not_fails_ok _)
  · exact .inl

/-- A loop fails where its set does, or the loops inside do for an element of the set. -/
theorem fails_enumerate_cons_iff {filter : Option Expr} {i : IndexSet} {is : List IndexSet}
    {b : Bindings} :
    Fails (enumerate filter (i :: is) b) ↔ Fails (b.evalSet i.set) ∨
      ∃ vs, b.evalSet i.set = .ok vs ∧ ∃ v ∈ vs, Fails (enumerate filter is (b.push i.name v)) := by
  rw [enumerate, Outcome.fails_bind_iff]
  refine or_congr_right (exists_congr fun vs => and_congr_right fun _ => ?_)
  rw [Outcome.fails_bind_iff, Outcome.fails_mapM_iff]
  constructor
  · rintro (h | ⟨parts, -, h⟩)
    · exact h
    · exact absurd h (Outcome.not_fails_ok _)
  · exact .inl

/-- Nested enumeration fails where it comes to loops that cannot go on. -/
theorem fails_enumerate_iff {filter : Option Expr} {is : List IndexSet} {b : Bindings} :
    Fails (enumerate filter is b) ↔ ∃ rest b', Reached is b rest b' ∧ Stuck filter rest b' := by
  induction is generalizing b with
  | nil =>
    rw [fails_enumerate_nil_iff]
    constructor
    · intro h
      exact ⟨[], b, .here, h⟩
    · rintro ⟨rest, b', hreached, h⟩
      cases hreached
      exact h
  | cons i is ih =>
    rw [fails_enumerate_cons_iff]
    constructor
    · rintro (h | ⟨vs, hvs, v, hv, h⟩)
      · exact ⟨i :: is, b, .here, h⟩
      · obtain ⟨rest, b', hreached, h⟩ := ih.1 h
        exact ⟨rest, b', .inside hvs hv hreached, h⟩
    · rintro ⟨rest, b', hreached, h⟩
      cases hreached with
      | here => exact .inl h
      | inside hvs hv hreached => exact .inr ⟨_, hvs, _, hv, ih.2 ⟨rest, b', hreached, h⟩⟩

namespace Declaration

variable (d : Declaration) (params : Params)

/-- A set cannot be evaluated on its own. -/
def SetFails : Prop := ∃ i ∈ d.indices, Fails ((Bindings.ofParams params).evalSet i.set)

/-- A set has an element twice. -/
def ElementTwice : Prop :=
  ∃ sets, d.evalAxes params = .ok sets ∧
    ∃ vs ∈ sets, ¬ vs.Pairwise fun v w => IndexValue.compare v w ≠ .eq

/-- The nested loops come to a set that cannot be evaluated. -/
def NestedSetFails : Prop :=
  ∃ i rest b, Reached d.indices (.ofParams params) (i :: rest) b ∧ Fails (b.evalSet i.set)

/-- The nested loops come to a tuple on which the condition cannot be evaluated. -/
def ConditionFails : Prop :=
  ∃ b, Reached d.indices (.ofParams params) [] b ∧ Fails (b.meets d.filter)

/-- The nested loops give a key twice. -/
def KeyTwice : Prop :=
  ∃ ks, d.enumerateKeys params = .ok ks ∧ ¬ ks.Pairwise fun k k' => Key.compare k k' ≠ .eq

theorem fails_enumerateKeys_iff :
    Fails (d.enumerateKeys params) ↔ d.NestedSetFails params ∨ d.ConditionFails params := by
  rw [enumerateKeys, fails_enumerate_iff]
  constructor
  · rintro ⟨_ | ⟨i, rest⟩, b, hreached, h⟩
    · exact .inr ⟨b, hreached, h⟩
    · exact .inl ⟨i, rest, b, hreached, h⟩
  · rintro (⟨i, rest, b, hreached, h⟩ | ⟨b, hreached, h⟩)
    · exact ⟨i :: rest, b, hreached, h⟩
    · exact ⟨[], b, hreached, h⟩

end Declaration

namespace Plan

/-- What can be wrong with the keys of a plan. -/
def Fault (p : Plan) (params : Params) : Prop :=
  match p.representation with
  | .scalar => False
  | .dense => p.declaration.SetFails params
  | .axis => p.declaration.SetFails params ∨ p.declaration.ElementTwice params
  | .map => p.declaration.NestedSetFails params ∨ p.declaration.ConditionFails params ∨
      p.declaration.KeyTwice params

theorem fails_evalAxes_iff {d : Declaration} {params : Params} :
    Fails (d.evalAxes params) ↔ d.SetFails params := by
  rw [Declaration.evalAxes, Outcome.fails_mapM_iff, Declaration.indexSets]
  simp [Declaration.SetFails]

omit [Closeness] in
theorem fails_ofList_iff {vs : List IndexValue} :
    Fails (Axis.ofList vs) ↔ ¬ vs.Pairwise fun v w => IndexValue.compare v w ≠ .eq := by
  rw [← Axis.exists_ofList_iff, Outcome.fails_iff_ne_ok, not_exists]

omit [Closeness] in
theorem fails_distinctAxes_iff {p : Plan} {l : Label} {sets : List (List IndexValue)}
    (hlength : sets.length = p.declaration.indexNames.length) :
    Fails (p.distinctAxes l sets) ↔
      ∃ vs ∈ sets, ¬ vs.Pairwise fun v w => IndexValue.compare v w ≠ .eq := by
  have hsets : (p.declaration.indexNames.zip sets).map Prod.snd = sets :=
    List.map_snd_zip (by omega)
  rw [distinctAxes, Outcome.fails_mapM_iff]
  conv => rhs; rw [← hsets]
  simp only [Outcome.fails_mapError_iff, fails_ofList_iff, List.mem_map,
    exists_exists_and_eq_and]

theorem fails_distinctKeys_iff {p : Plan} {l : Label} {params : Params} :
    Fails (p.distinctKeys l params) ↔ Fails (p.declaration.enumerateKeys params) ∨
      ∃ ks, p.declaration.enumerateKeys params = .ok ks ∧
        ¬ ks.Pairwise fun k k' => Key.compare k k' ≠ .eq := by
  rw [Outcome.fails_iff_ne_ok]
  simp only [Ne, distinctKeys_eq_ok_iff]
  cases h : p.declaration.enumerateKeys params with
  | error e => simp [Fails]
  | ok ks => simp [Fails]

/-- Nothing but these faults keeps a plan from having keys. -/
theorem fails_layout_iff {α : Type} {p : Plan} {l : Label} {params : Params} :
    Fails (p.layout α l params) ↔ p.Fault params := by
  rw [layout, Fault]
  cases p.representation with
  | scalar => exact iff_of_false (Outcome.not_fails_ok _) id
  | dense =>
    simp only [Outcome.fails_bind_iff, Outcome.fails_mapError_iff, fails_evalAxes_iff]
    constructor
    · rintro (h | ⟨sets, -, h⟩)
      · exact h
      · exact absurd h (Outcome.not_fails_ok _)
    · exact .inl
  | axis =>
    simp only [Outcome.fails_bind_iff, Outcome.fails_mapError_iff, fails_evalAxes_iff,
      Outcome.mapError_eq_ok_iff]
    constructor
    · rintro (h | ⟨sets, hsets, h | ⟨axes, -, h⟩⟩)
      · exact .inl h
      · exact .inr ⟨sets, hsets, (fails_distinctAxes_iff (length_of_evalAxes hsets)).mp h⟩
      · exact absurd h (Outcome.not_fails_ok _)
    · rintro (h | ⟨sets, hsets, h⟩)
      · exact .inl h
      · exact .inr ⟨sets, hsets, .inl ((fails_distinctAxes_iff (length_of_evalAxes hsets)).mpr h)⟩
  | map =>
    have hkeys : Fails (p.distinctKeys l params) ↔ p.declaration.NestedSetFails params ∨
        p.declaration.ConditionFails params ∨ p.declaration.KeyTwice params := by
      rw [fails_distinctKeys_iff, p.declaration.fails_enumerateKeys_iff, or_assoc]
      rfl
    simp only [Outcome.fails_bind_iff, hkeys]
    constructor
    · rintro (h | ⟨ks, -, h⟩)
      · exact h
      · exact absurd h (Outcome.not_fails_ok _)
    · exact .inl

end Plan

/-! ## Symmetric matrices -/

/-- The set is written `1..N`, where `N` is an integer, and `n` is the number of its elements. -/
def IndexSet.HasSide (i : IndexSet) (params : Params) (n : Nat) : Prop :=
  ∃ hi v k, i.set.oneBasedUpper? = some hi ∧ (Bindings.ofParams params).evalScalar hi = .ok v ∧
    v.int? = some k ∧ k.toInt.toNat = n

namespace Declaration

/-- What a declaration has to be for a symmetric matrix of side `n`. -/
structure IsSymmetric (d : Declaration) (params : Params) (n : Nat) : Prop where
  unconditional : d.filter = none
  sides : ∃ row column, d.indices = [row, column] ∧ row.HasSide params n ∧ column.HasSide params n
  independent : d.dependency? = none
  dense : d.kind = .auto ∨ d.kind = .dense

theorem sideLength_eq_ok_iff {l : Label} {params : Params} {i : IndexSet} {n : Nat} :
    sideLength l params i = .ok n ↔ i.HasSide params n := by
  rw [sideLength, IndexSet.HasSide]
  cases i.set.oneBasedUpper? with
  | none =>
    refine iff_of_false (fun h => by cases h) ?_
    rintro ⟨hi, v, k, hhi, -⟩
    cases hhi
  | some hi =>
    simp only [Outcome.bind_eq_ok_iff, Outcome.mapError_eq_ok_iff]
    constructor
    · rintro ⟨v, hv, h⟩
      cases hk : v.int? with
      | none =>
        rw [hk] at h
        cases h
      | some k =>
        rw [hk] at h
        cases h
        exact ⟨hi, v, k, rfl, hv, hk, rfl⟩
    · rintro ⟨hi', v, k, hhi, hv, hk, rfl⟩
      cases hhi
      refine ⟨v, hv, ?_⟩
      rw [hk]
      rfl

theorem symmetricSize_eq_ok_iff {l : Label} {d : Declaration} {params : Params} {n : Nat} :
    d.symmetricSize l params = .ok n ↔ d.IsSymmetric params n := by
  unfold symmetricSize
  cases hfilter : d.filter with
  | some condition =>
    refine iff_of_false (fun h => by cases h) fun h => ?_
    rw [h.unconditional] at hfilter
    cases hfilter
  | none =>
    simp only [Option.isSome_none, Bool.false_eq_true, if_false]
    split
    · rename_i row column hindices
      cases hdep : d.dependency? with
      | some found =>
        refine iff_of_false (fun h => by cases h) fun h => ?_
        rw [h.independent] at hdep
        cases hdep
      | none =>
        simp only [Outcome.bind_eq_ok_iff, sideLength_eq_ok_iff]
        constructor
        · rintro ⟨rows, hrows, columns, hcolumns, h⟩
          split at h
          · cases h
          · -- a square, so one of the kinds that allow it is left
            rename_i hsquare
            obtain rfl : rows = columns := not_not.mp hsquare
            cases hkind : d.kind <;> rw [hkind] at h <;> cases h
            case auto.refl =>
              exact ⟨hfilter, ⟨row, column, hindices, hrows, hcolumns⟩, hdep, .inl hkind⟩
            case dense.refl =>
              exact ⟨hfilter, ⟨row, column, hindices, hrows, hcolumns⟩, hdep, .inr hkind⟩
        · intro h
          obtain ⟨row', column', hindices', hrow, hcolumn⟩ := h.sides
          rw [hindices] at hindices'
          cases hindices'
          refine ⟨n, hrow, n, hcolumn, ?_⟩
          rw [if_neg (not_not.mpr rfl)]
          rcases h.dense with hkind | hkind <;> rw [hkind] <;> rfl
    · rename_i hindices
      refine iff_of_false (fun h => by cases h) fun h => ?_
      obtain ⟨row, column, hrow, -⟩ := h.sides
      exact hindices row column hrow

end Declaration

end AlgebraicModel
