import AlgebraicModel.Proofs.Container.Repetition
import AlgebraicModel.Proofs.Population.Contents

/-!
# A map is a nested comprehension

The keys of a map are those of nested loops: every set is evaluated with the enclosing indices
bound, and a tuple is kept when the condition holds of it. `met` is all that these loops come to
when nothing stops them, in order: the tuples that are kept and the errors of sets and conditions.
The population of a map reports the first of the errors, if there is one (`enumerate_of_error`).
Otherwise `met` is the list of the tuples (`enumerate_of_keys`), and the population reports the
first of them that is equal to an earlier one, or else calls its description once for each tuple in
this order, up to the first call that fails (`Plan.populate_comprehension`).

In the bindings of a call each index has its component of the tuple, and of several indices with one
name the innermost (`BindsTuple`).
-/

set_option autoImplicit false

namespace AlgebraicModel

open Outcome (Fails)

/-! ## Nested loops -/

/-- All that nested loops come to: the tuples that meet the condition, and the errors of sets and of
the condition. -/
def met [Closeness] (filter : Option Expr) : List IndexSet → Bindings → List (Except EvalError Key)
  | [], b =>
    match b.meets filter with
    | .ok true => [.ok b.key]
    | .ok false => []
    | .error e => [.error e]
  | i :: is, b =>
    match b.evalSet i.set with
    | .ok elements => elements.flatMap fun v => met filter is (b.push i.name v)
    | .error e => [.error e]

/-- Collecting the parts of a list is collecting each part. -/
theorem Outcome.mapM_flatMap {ε β γ δ : Type} (f : β → List γ) (g : γ → Except ε δ) (xs : List β) :
    (xs.flatMap f).mapM g = do
      let parts ← xs.mapM fun x => (f x).mapM g
      return parts.flatten := by
  induction xs with
  | nil => rfl
  | cons x xs ih =>
    rw [List.flatMap_cons, List.mapM_append, ih, List.mapM_cons]
    simp only [bind_assoc, pure_bind, List.flatten_cons]

/-- Nested enumeration collects what the loops come to, and stops at the first error. -/
theorem enumerate_eq_mapM_met [Closeness] (filter : Option Expr) (is : List IndexSet)
    (b : Bindings) :
    enumerate filter is b = (met filter is b).mapM id := by
  induction is generalizing b with
  | nil =>
    rw [enumerate, met]
    cases b.meets filter with
    | error e => rfl
    | ok holds => cases holds <;> rfl
  | cons i is ih =>
    rw [enumerate, met]
    cases b.evalSet i.set with
    | error e => rfl
    | ok elements =>
      dsimp only
      rw [Outcome.mapM_flatMap]
      simp only [← ih]
      rfl

theorem Outcome.mapM_id_of_error {ε β : Type} {before : List β} {e : ε}
    {after : List (Except ε β)} :
    (before.map Except.ok ++ Except.error e :: after).mapM id = .error e := by
  induction before with
  | nil => rfl
  | cons b before ih =>
    rw [List.map_cons, List.cons_append, List.mapM_cons, ih]
    rfl

theorem Outcome.mapM_id_of_ok {ε β : Type} (bs : List β) :
    (bs.map Except.ok).mapM (m := Except ε) id = .ok bs := by
  induction bs with
  | nil => rfl
  | cons b bs ih =>
    rw [List.map_cons, List.mapM_cons, ih]
    rfl

/-- The first error that the loops come to is the outcome of the enumeration. -/
theorem enumerate_of_error [Closeness] {filter : Option Expr} {is : List IndexSet} {b : Bindings}
    {before : List Key} {e : EvalError} {after : List (Except EvalError Key)}
    (h : met filter is b = before.map .ok ++ .error e :: after) :
    enumerate filter is b = .error e := by
  rw [enumerate_eq_mapM_met, h, Outcome.mapM_id_of_error]

/-- Without an error the enumeration gives the tuples that the loops come to. -/
theorem enumerate_of_keys [Closeness] {filter : Option Expr} {is : List IndexSet} {b : Bindings}
    {ks : List Key} (h : met filter is b = ks.map .ok) : enumerate filter is b = .ok ks := by
  rw [enumerate_eq_mapM_met, h, Outcome.mapM_id_of_ok]

/-! ## Calls in order -/

variable {σ α : Type}

/-- The calls go along a list of bindings, one for each, up to the first that fails. -/
structure CallsAlong (bs : List Bindings) (calls : List (Call α)) : Prop where
  inOrder : calls.map Call.bindings <+: bs
  /-- Where no call fails, each of the bindings has its call. -/
  each : (∀ c ∈ calls, ¬ Fails c.result) → calls.map Call.bindings = bs
  /-- A call that fails is the last one. -/
  stopped : ∀ before c after, calls = before ++ c :: after → Fails c.result → after = []

theorem CallsAlong.runAll (build : Builder σ α) (l : Label) (bs : List Bindings) (s : σ) :
    CallsAlong bs (build.runAll bs s).1 where
  inOrder := by
    induction bs generalizing s with
    | nil => exact List.prefix_rfl
    | cons b bs ih =>
      rw [Builder.runAll]
      split
      · exact List.prefix_cons_inj b |>.mpr (ih _)
      · exact ⟨bs, rfl⟩
  each h := by
    have hok : ¬ Fails (Call.outcome l (build.runAll bs s).1) := by
      intro hfails
      obtain ⟨c, hc, hcfails⟩ := Call.fails_outcome_iff.mp hfails
      exact h c hc hcfails
    cases hout : Call.outcome l (build.runAll bs s).1 with
    | error e => exact absurd ⟨e, hout⟩ hok
    | ok es =>
      obtain ⟨hlength, hcalls⟩ := Builder.runAll_of_outcome_eq_ok hout
      rw [hcalls, ← List.map_uncurry_zip_eq_zipWith, List.map_map]
      exact List.map_fst_zip hlength.le
  stopped before c after hsplit hc := by
    obtain ⟨e, he⟩ := hc
    exact (Builder.runAll_of_failure hsplit he l).1

/-! ## Bindings of a tuple -/

namespace Bindings

theorem index?_push (b : Bindings) (n m : Name) (v : IndexValue) :
    (b.push n v).index? m = if m = n then some v else b.index? m := by
  by_cases h : m = n
  · simp [index?, push, h]
  · have hne : (m == n) = false := beq_eq_false_iff_ne.mpr h
    simp [index?, push, List.lookup_cons, h, hne]

/-- Names other than those of the bound indices are the indices that they were. -/
theorem index?_pushAll_of_not_mem {b : Bindings} {names : List Name} {k : Key} {m : Name}
    (h : m ∉ names) : (b.pushAll names k).index? m = b.index? m := by
  induction names generalizing b k with
  | nil => rw [pushAll_nil_left]
  | cons n names ih =>
    rw [List.mem_cons, not_or] at h
    obtain ⟨hne, hnames⟩ := h
    cases k with
    | nil => rw [pushAll_nil_right]
    | cons v k => rw [pushAll_cons, ih hnames, index?_push, if_neg hne]

/-- A bound index has its value, unless an index of the same name is bound further inside. -/
theorem index?_pushAll {b : Bindings} {names : List Name} {k : Key}
    (hlength : k.length = names.length) {j : Nat} {n : Name} {v : IndexValue}
    (hn : names[j]? = some n) (hv : k[j]? = some v)
    (hinner : ∀ i, j < i → names[i]? ≠ some n) : (b.pushAll names k).index? n = some v := by
  induction names generalizing b k j with
  | nil => cases hn
  | cons m names ih =>
    cases k with
    | nil => cases hv
    | cons w k =>
      rw [pushAll_cons]
      cases j with
      | zero =>
        cases hn
        cases hv
        -- no later name is `n`, so what is bound here stays the innermost
        have hnames : n ∉ names := by
          intro hmem
          obtain ⟨i, hi⟩ := List.mem_iff_getElem?.mp hmem
          exact hinner (i + 1) (Nat.succ_pos i) hi
        rw [index?_pushAll_of_not_mem hnames, index?_push, if_pos rfl]
      | succ j =>
        refine ih (Nat.succ.inj hlength) hn hv ?_
        intro i hi
        exact hinner (i + 1) (Nat.succ_lt_succ hi)

end Bindings

/-- The bindings of a tuple over the indices of a declaration: every index has its component, the
innermost of several with one name, and any other name means what the parameters say. -/
structure BindsTuple (d : Declaration) (params : Params) (k : Key) (b : Bindings) : Prop where
  key : b.key = k
  component : ∀ (j : Nat) (n : Name) (v : IndexValue), d.indexNames[j]? = some n →
    k[j]? = some v → (∀ i, j < i → d.indexNames[i]? ≠ some n) → b.index? n = some v
  parameter : ∀ n, n ∉ d.indexNames → b.resolve? n = params.get? n

theorem BindsTuple.bindingsAt {d : Declaration} {k : Key} (h : k.length = d.indexNames.length)
    (params : Params) : BindsTuple d params k (d.bindingsAt params k) where
  key := d.key_bindingsAt h params
  component _ _ _ hn hv hinner := Bindings.index?_pushAll h hn hv hinner
  parameter n hn := by
    rw [Declaration.bindingsAt, Bindings.resolve?_pushAll hn]
    rfl

/-! ## Populations of maps -/

namespace Plan

section

variable [Closeness]

theorem layout_of_map {p : Plan} (hmap : p.representation = .map) (l : Label) (params : Params) :
    p.layout α l params = do
      let keys ← p.distinctKeys l params
      return (keys, fun es => .map (.ofList (keys.zip es) Key.compare)) := by
  rw [layout, hmap]

theorem layout_of_enumerate_error {p : Plan} (hmap : p.representation = .map) {l : Label}
    {params : Params} {e : EvalError} (h : p.declaration.enumerateKeys params = .error e) :
    p.layout α l params = .error (l.attach (.ofCause e)) := by
  rw [layout_of_map hmap, distinctKeys, h]
  rfl

theorem layout_of_firstRepeat {p : Plan} (hmap : p.representation = .map) {l : Label}
    {params : Params} {ks : List Key} (h : p.declaration.enumerateKeys params = .ok ks) {k : Key}
    (hk : FirstRepeat Key.compare ks k) :
    p.layout α l params =
      .error (l.repeatedIndex (p.declaration.label ++ "[" ++ k.text ++ "]")) := by
  have hrepeat := Key.firstRepeat?_eq_some_iff.mpr hk
  rw [layout_of_map hmap, distinctKeys, h]
  simp only [Except.mapError, bind, Except.bind, hrepeat]
  rfl

theorem exists_layout_of_distinct {p : Plan} (hmap : p.representation = .map) {l : Label}
    {params : Params} {ks : List Key} (h : p.declaration.enumerateKeys params = .ok ks)
    (hks : ks.Pairwise fun k k' => Key.compare k k' ≠ .eq) :
    ∃ pack, p.layout α l params = .ok (ks, pack) := by
  refine ⟨fun es => .map (.ofList (ks.zip es) Key.compare), ?_⟩
  rw [layout_of_map hmap, distinctKeys_eq_ok_iff.mpr ⟨h, hks⟩]
  rfl

/-- The population of a map reports the first error of its nested loops. Where there is none, it
reports the first tuple that is equal to an earlier one. Where there is none of these either, it
calls its description along the tuples, each under bindings of its own, and reports the call that
fails. -/
theorem populate_comprehension {d : Declaration} {p : Plan} {l l' : Label}
    (hplan : d.plan l' = .ok p) (hmap : p.representation = .map) (params : Params)
    (build : Builder σ α) (s : σ) :
    (∀ (before : List Key) (e : EvalError) (after : List (Except EvalError Key)),
      met d.filter d.indices (.ofParams params) = before.map .ok ++ .error e :: after →
        (p.populate l params build).exec s = (.error (l.attach (.ofCause e)), s) ∧
          p.calls l params build s = []) ∧
    ∀ ks : List Key, met d.filter d.indices (.ofParams params) = ks.map .ok →
      (∀ k, FirstRepeat Key.compare ks k →
        (p.populate l params build).exec s =
            (.error (l.repeatedIndex (d.label ++ "[" ++ k.text ++ "]")), s) ∧
          p.calls l params build s = []) ∧
      ((ks.Pairwise fun k k' => Key.compare k k' ≠ .eq) →
        CallsAlong (ks.map (d.bindingsAt params)) (p.calls l params build s) ∧
          (∀ k ∈ ks, BindsTuple d params k (d.bindingsAt params k)) ∧
          ∀ c ∈ p.calls l params build s, ∀ e, c.result = .error e →
            ((p.populate l params build).exec s).1 = .error (l.attach e)) := by
  obtain ⟨rfl, -⟩ := Declaration.plan_eq_ok_iff.mp hplan
  constructor
  · intro before e after hmet
    have hlayout := layout_of_enumerate_error (α := α) (l := l) hmap (enumerate_of_error hmet)
    rw [exec_populate, hlayout, calls_of_layout_error hlayout]
    exact ⟨rfl, rfl⟩
  · intro ks hmet
    have hkeys : p.declaration.enumerateKeys params = .ok ks := enumerate_of_keys hmet
    constructor
    · intro k hk
      have hlayout := layout_of_firstRepeat (α := α) (l := l) hmap hkeys hk
      rw [exec_populate, hlayout, calls_of_layout_error hlayout]
      exact ⟨rfl, rfl⟩
    · intro hks
      obtain ⟨pack, hlayout⟩ := exists_layout_of_distinct (α := α) (l := l) hmap hkeys hks
      rw [exec_populate, hlayout, calls_of_layout hlayout]
      refine ⟨.runAll build l _ s, ?_, ?_⟩
      · intro k hk
        apply BindsTuple.bindingsAt
        exact (stores_of_layout hplan hlayout).1 k hk
      · intro c hc e he
        obtain ⟨before, after, hsplit⟩ := List.append_of_mem hc
        have hout := (Builder.runAll_of_failure hsplit he l).2.2
        dsimp only
        rw [runKeys, hout]
        rfl

end

/-- The map over `i` in `1..2` and `j` in `i..2` calls its description for three tuples. -/
theorem populate_comprehension_triangle :
    let d : Declaration :=
      ⟨none, [⟨⟨"i"⟩, .oneTo (.const (.int 2))⟩, ⟨⟨"j"⟩, .range (.var ⟨"i"⟩) (.const (.int 2))⟩],
        none, .map⟩
    let p : Plan := ⟨d, .map⟩
    let build : Builder Nat Nat := fun _ => ExceptT.mk fun n => (.ok n, n + 1)
    let ks : List Key := [[.int 1, .int 1], [.int 1, .int 2], [.int 2, .int 2]]
    d.plan ⟨"x"⟩ = .ok p ∧ p.representation = .map ∧
      (p.calls ⟨"x"⟩ .empty build 0).map Call.bindings = ks.map (d.bindingsAt .empty) := by
  intro d p build ks
  have hplan : d.plan ⟨"x"⟩ = .ok p := rfl
  obtain ⟨-, hkeys⟩ := populate_comprehension (l := ⟨"x"⟩) hplan rfl .empty build 0
  obtain ⟨halong, -, -⟩ := (hkeys ks rfl).2 (by decide +kernel)
  refine ⟨hplan, rfl, halong.each ?_⟩
  intro c hc hfails
  obtain ⟨e, he⟩ := hfails
  have hcalls : p.calls ⟨"x"⟩ .empty build 0 = [⟨d.bindingsAt .empty [.int 1, .int 1], .ok 0⟩,
      ⟨d.bindingsAt .empty [.int 1, .int 2], .ok 1⟩,
      ⟨d.bindingsAt .empty [.int 2, .int 2], .ok 2⟩] := rfl
  rw [hcalls] at hc
  simp only [List.mem_cons, List.not_mem_nil, or_false] at hc
  rcases hc with rfl | rfl | rfl <;> cases he

/-- A description that fails is not called again: over two different tuples there is one call. -/
theorem one_call_of_failing :
    let d : Declaration := ⟨none, [⟨⟨"i"⟩, .oneTo (.const (.int 2))⟩], none, .map⟩
    let p : Plan := ⟨d, .map⟩
    let ks : List Key := [[.int 1], [.int 2]]
    let build : Builder Nat Nat := fun _ =>
      ExceptT.mk fun n => (.error ⟨.downstream, .generic, none⟩, n)
    d.plan ⟨"x"⟩ = .ok p ∧ p.representation = .map ∧
      met d.filter d.indices (.ofParams .empty) = ks.map .ok ∧
      (ks.Pairwise fun k k' => Key.compare k k' ≠ .eq) ∧
      (p.calls ⟨"x"⟩ .empty build 0).map Call.bindings ≠ ks.map (d.bindingsAt .empty) := by
  intro d p ks build
  refine ⟨rfl, rfl, rfl, by decide +kernel, ?_⟩
  intro h
  have hlength := congrArg List.length h
  have hone : (p.calls ⟨"x"⟩ .empty build 0).length = 1 := rfl
  rw [List.length_map, hone] at hlength
  cases hlength

end Plan

end AlgebraicModel
