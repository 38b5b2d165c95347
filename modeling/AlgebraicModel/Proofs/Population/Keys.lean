import AlgebraicModel.Population.Keys
import AlgebraicModel.Proofs.Container.Lookup
import AlgebraicModel.Proofs.Declaration.Plan
import AlgebraicModel.Proofs.Expr.Coincidence

/-!
# The two ways to the keys of a collection

Nested enumeration evaluates each index set with the enclosing indices bound; evaluation of the axes
takes each set on its own. Where no set depends on an index declared before it, and no condition is
given, both give the same keys in the same order (`enumerate_eq_tuples`). The axes can fail where
the enumeration does not, since a set inside an empty set is never evaluated by the enumeration; but
if there is a key at all, every set has been evaluated (`exists_sets_of_enumerate`).
-/

set_option autoImplicit false

namespace AlgebraicModel

/-! ## Keys and bindings -/

namespace Bindings

theorem key_pushAll {names : List Name} {k : Key} (h : k.length = names.length) (b : Bindings) :
    (b.pushAll names k).key = b.key ++ k := by
  induction names generalizing b k with
  | nil =>
    rw [List.length_eq_zero_iff.mp h]
    simp
  | cons n names ih =>
    cases k with
    | nil => cases h
    | cons v k =>
      rw [pushAll_cons, ih (Nat.succ.inj h), key_push, List.append_assoc, List.singleton_append]

end Bindings

/-- The key of the bindings of a key is that key. -/
theorem Declaration.key_bindingsAt {d : Declaration} {k : Key} (h : k.length = d.indexNames.length)
    (params : Params) : (d.bindingsAt params k).key = k := by
  rw [bindingsAt, Bindings.key_pushAll h, Bindings.key_ofParams, List.nil_append]

/-- An enumerated key has the enclosing values and one value for each index. -/
theorem length_of_mem_enumerate [Closeness] {filter : Option Expr} {is : List IndexSet}
    {b : Bindings} {ks : List Key} (h : enumerate filter is b = .ok ks) :
    ∀ k ∈ ks, k.length = b.key.length + is.length := by
  induction is generalizing b ks with
  | nil =>
    -- inside all loops the key is that of the bindings, unless the condition drops it
    obtain ⟨holds, -, h⟩ := Outcome.bind_eq_ok_iff.mp h
    cases holds <;> cases h <;> simp
  | cons i is ih =>
    obtain ⟨s, -, h⟩ := Outcome.bind_eq_ok_iff.mp h
    obtain ⟨parts, hparts, h⟩ := Outcome.bind_eq_ok_iff.mp h
    cases h
    -- every pass through the loop binds one value more
    have hlength := Outcome.forall_mem_of_mapM hparts
      (P := fun part => ∀ k ∈ part, k.length = b.key.length + (i :: is).length) <| by
      intro v _ part hpart k hk
      have hk := ih hpart k hk
      rw [Bindings.key_push, List.length_append, List.length_singleton] at hk
      rw [hk, List.length_cons]
      omega
    intro k hk
    obtain ⟨part, hpart, hk⟩ := List.mem_flatten.mp hk
    exact hlength part hpart k hk

/-! ## Sets written `1..N` -/

theorem Expr.eq_oneTo_of_oneBasedUpper? {e hi : Expr} (h : e.oneBasedUpper? = some hi) :
    e = oneTo hi := by
  unfold oneBasedUpper? at h
  split at h
  · cases h
    rfl
  · cases h

/-- A set that is written `1..N` is the index set of a dense dimension. -/
theorem Bindings.evalSet_oneTo [Closeness] {b : Bindings} {hi : Expr} {s : List IndexValue}
    (h : b.evalSet (.oneTo hi) = .ok s) : ∃ n, s = DenseArray.indexSet n := by
  obtain ⟨value, hvalue, hs⟩ := Outcome.bind_eq_ok_iff.mp h
  simp only [Expr.oneTo, Expr.eval] at hvalue
  -- the lower end is the constant one, and the upper end comes out as some integer
  obtain ⟨one, hone, hvalue⟩ := Outcome.bind_eq_ok_iff.mp hvalue
  obtain ⟨lo, hlo, hvalue⟩ := Outcome.bind_eq_ok_iff.mp hvalue
  obtain ⟨upper, -, hvalue⟩ := Outcome.bind_eq_ok_iff.mp hvalue
  obtain ⟨n, -, hvalue⟩ := Outcome.bind_eq_ok_iff.mp hvalue
  cases hone
  cases hlo
  cases hvalue
  cases hs
  exact ⟨n, rfl⟩

/-- The sets of a declaration whose index sets are all written `1..N`. -/
theorem exists_indexSets [Closeness] {es : List Expr}
    (hes : ∀ e ∈ es, e.oneBasedUpper?.isSome = true) {b : Bindings}
    {sets : List (List IndexValue)} (h : es.mapM b.evalSet = .ok sets) :
    ∃ ns : List Int64, sets = ns.map DenseArray.indexSet := by
  have hsets := Outcome.mapM_eq_ok_iff.mp h
  clear h
  induction hsets with
  | nil => exact ⟨[], rfl⟩
  | @cons e s es sets he _ ih =>
    obtain ⟨hone, hes⟩ := List.forall_mem_cons.mp hes
    obtain ⟨hi, hhi⟩ := Option.isSome_iff_exists.mp hone
    rw [Expr.eq_oneTo_of_oneBasedUpper? hhi] at he
    obtain ⟨n, rfl⟩ := Bindings.evalSet_oneTo he
    obtain ⟨ns, rfl⟩ := ih hes
    exact ⟨n :: ns, rfl⟩

/-! ## Index sets without dependencies -/

/-- No set mentions an index declared before it. -/
def Independent (is : List IndexSet) : Prop :=
  firstDependency? (is.map (·.name)) (is.map (·.set)) = none

theorem Independent.of_cons {i : IndexSet} {is : List IndexSet} (h : Independent (i :: is)) :
    Independent is ∧ ∀ j ∈ is, j.set.mentions i.name = false := by
  have hmentions := firstDependency?_eq_none_iff.mp h
  constructor
  · refine firstDependency?_eq_none_iff.mpr ?_
    intro k e he n hn
    exact hmentions (k + 1) e he n (List.mem_cons_of_mem _ hn)
  · intro j hj
    obtain ⟨k, hk⟩ := List.mem_iff_getElem?.mp hj
    refine hmentions (k + 1) j.set ?_ i.name List.mem_cons_self
    simp [hk]

variable [Closeness]

/-- The sets inside a loop are what they are outside. -/
theorem Independent.mapM_evalSet_push {i : IndexSet} {is : List IndexSet}
    (h : Independent (i :: is)) (b : Bindings) (v : IndexValue) :
    (is.map (·.set)).mapM (b.push i.name v).evalSet = (is.map (·.set)).mapM b.evalSet := by
  apply Outcome.mapM_congr
  intro e he
  obtain ⟨j, hj, rfl⟩ := List.mem_map.mp he
  have hnames : ∀ n ∈ [i.name], j.set.mentions n = false := by
    simpa using h.of_cons.2 j hj
  have heval : j.set.eval (b.push i.name v) = j.set.eval b := Expr.eval_pushAll hnames b [v]
  rw [Bindings.evalSet, Bindings.evalSet, heval]

/-- Nested enumeration of independent sets gives their tuples, behind the enclosing values. -/
theorem enumerate_eq_tuples {is : List IndexSet} (his : Independent is) {b : Bindings}
    {sets : List (List IndexValue)} (h : (is.map (·.set)).mapM b.evalSet = .ok sets) :
    enumerate none is b = .ok ((tuples sets).map (b.key ++ ·)) := by
  induction is generalizing b sets with
  | nil =>
    cases h
    change Except.ok [b.key] = _
    simp
  | cons i is ih =>
    rw [List.map_cons, List.mapM_cons] at h
    obtain ⟨s, hs, h⟩ := Outcome.bind_eq_ok_iff.mp h
    obtain ⟨ss, hss, h⟩ := Outcome.bind_eq_ok_iff.mp h
    cases h
    -- the inner sets do not see the index, so each pass gives the tuples of the same sets
    have hparts : s.mapM (fun v => enumerate none is (b.push i.name v)) =
        .ok (s.map fun v => (tuples ss).map ((b.push i.name v).key ++ ·)) := by
      apply Outcome.mapM_eq_ok_map
      intro v _
      apply ih his.of_cons.1
      rw [his.mapM_evalSet_push, hss]
    refine Outcome.bind_eq_ok_iff.mpr ⟨s, hs, Outcome.bind_eq_ok_iff.mpr ⟨_, hparts, ?_⟩⟩
    refine congrArg Except.ok ?_
    simp [List.flatMap, List.map_flatten, Function.comp_def]

/-- Where independent sets have a tuple, nested enumeration has evaluated all of them. -/
theorem exists_sets_of_enumerate {is : List IndexSet} (his : Independent is) {b : Bindings}
    {ks : List Key} (h : enumerate none is b = .ok ks) (hks : ks ≠ []) :
    ∃ sets, (is.map (·.set)).mapM b.evalSet = .ok sets := by
  induction is generalizing b ks with
  | nil => exact ⟨[], rfl⟩
  | cons i is ih =>
    obtain ⟨s, hs, h⟩ := Outcome.bind_eq_ok_iff.mp h
    obtain ⟨parts, hparts, h⟩ := Outcome.bind_eq_ok_iff.mp h
    cases h
    -- a key comes out of one of the passes, in which the inner sets were evaluated
    obtain ⟨k, hk⟩ := List.exists_mem_of_ne_nil _ hks
    obtain ⟨part, hpart, hk⟩ := List.mem_flatten.mp hk
    obtain ⟨v, -, hv⟩ := Outcome.exists_of_mem_mapM hparts hpart
    obtain ⟨ss, hss⟩ := ih his.of_cons.1 hv (List.ne_nil_of_mem hk)
    rw [his.mapM_evalSet_push] at hss
    refine ⟨s :: ss, ?_⟩
    rw [List.map_cons, List.mapM_cons, hs, hss]
    rfl

end AlgebraicModel
