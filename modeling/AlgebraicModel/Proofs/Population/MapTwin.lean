import AlgebraicModel.Proofs.Population.Contents

/-!
# An array and its map twin

A declaration that can be an array can also be a map. The array takes each index set on its own and
trusts the axes for its keys to be different; the map takes each set inside the ones before it and
compares all keys. Where the array finds its keys, the map finds the same ones
(`Plan.layout_mapTwin`), and where the map has a key at all, the array finds them as well
(`Plan.layout_of_mapTwin`): the axes evaluate no more sets than a single key makes the enumeration
evaluate, and axes over equal values would have given equal keys. So the two make the same calls and
answer look-ups alike (`Plan.populate_mapTwin`).
-/

set_option autoImplicit false

namespace AlgebraicModel

variable {σ α : Type}

namespace Declaration

/-- The same declaration, asking for a map. -/
def mapTwin (d : Declaration) : Declaration := { d with kind := .map }

theorem plan_mapTwin {d : Declaration} (harray : d.IsArray) (l : Label) :
    d.mapTwin.plan l = .ok ⟨d.mapTwin, .map⟩ :=
  plan_eq_ok_iff.mpr ⟨rfl, representation_of_map harray.indexed rfl⟩

/-- The enumeration of a declaration that can be an array gives the tuples of its index sets. -/
theorem enumerateKeys_mapTwin [Closeness] {d : Declaration} (harray : d.IsArray) {params : Params}
    {sets : List (List IndexValue)} (h : d.evalAxes params = .ok sets) :
    d.mapTwin.enumerateKeys params = .ok (tuples sets) := by
  have hkeys := enumerate_eq_tuples harray.independent h
  rw [enumerateKeys, mapTwin, harray.unconditional, hkeys]
  simp

/-- Where the enumeration gives a key, each index set can be evaluated on its own. -/
theorem exists_evalAxes_of_mapTwin [Closeness] {d : Declaration} (harray : d.IsArray)
    {params : Params} {ks : List Key} (h : d.mapTwin.enumerateKeys params = .ok ks)
    (hks : ks ≠ []) :
    ∃ sets, d.evalAxes params = .ok sets ∧ ks = tuples sets := by
  have henumerate := h
  rw [enumerateKeys, mapTwin, harray.unconditional] at henumerate
  obtain ⟨sets, hsets⟩ := exists_sets_of_enumerate harray.independent henumerate hks
  refine ⟨sets, hsets, ?_⟩
  rw [enumerateKeys_mapTwin harray hsets] at h
  cases h
  rfl

end Declaration

namespace Plan

/-- A plan for an array. -/
def IsArray (p : Plan) : Prop := p.representation = .dense ∨ p.representation = .axis

theorem IsArray.declaration {d : Declaration} {p : Plan} {l : Label} (hp : p.IsArray)
    (hplan : d.plan l = .ok p) : d.IsArray := by
  obtain ⟨-, hrep⟩ := Declaration.plan_eq_ok_iff.mp hplan
  rcases Declaration.representation_cases hrep with
    ⟨hr, -⟩ | ⟨-, harray, -⟩ | ⟨-, harray⟩ | hr
  · rcases hp with hp | hp <;> rw [hr] at hp <;> cases hp
  · exact harray
  · exact harray
  · rcases hp with hp | hp <;> rw [hr] at hp <;> cases hp

/-- The keys of an array are the tuples of its index sets. -/
theorem exists_evalAxes_of_layout [Closeness] {p : Plan} (hp : p.IsArray) {l : Label}
    {params : Params} {ks : List Key} {pack : List α → Container α}
    (h : p.layout α l params = .ok (ks, pack)) :
    ∃ sets, p.declaration.evalAxes params = .ok sets ∧ ks = tuples sets := by
  rw [layout] at h
  rcases hp with hr | hr <;> rw [hr] at h
  · obtain ⟨sets, hsets, h⟩ := Outcome.bind_eq_ok_iff.mp h
    cases h
    exact ⟨sets, Outcome.mapError_eq_ok_iff.mp hsets, rfl⟩
  · obtain ⟨sets, hsets, h⟩ := Outcome.bind_eq_ok_iff.mp h
    obtain ⟨axes, -, h⟩ := Outcome.bind_eq_ok_iff.mp h
    cases h
    exact ⟨sets, Outcome.mapError_eq_ok_iff.mp hsets, rfl⟩

/-- Where an array finds its keys, the map finds the same keys. -/
theorem layout_mapTwin [Closeness] {d : Declaration} {p : Plan} {l l' : Label} {params : Params}
    (hplan : d.plan l' = .ok p) (hp : p.IsArray) {ks : List Key} {pack : List α → Container α}
    (h : p.layout α l params = .ok (ks, pack)) :
    ∃ pack', (⟨d.mapTwin, .map⟩ : Plan).layout α l params = .ok (ks, pack') := by
  -- the keys of an array are different, so the map accepts them
  obtain ⟨-, hdistinct, -⟩ := stores_of_layout hplan h
  obtain ⟨sets, hsets, rfl⟩ := exists_evalAxes_of_layout hp h
  rw [(Declaration.plan_eq_ok_iff.mp hplan).1] at hsets
  have hkeys := Declaration.enumerateKeys_mapTwin (hp.declaration hplan) hsets
  exact ⟨_, Outcome.bind_eq_ok_iff.mpr
    ⟨tuples sets, distinctKeys_eq_ok_iff.mpr ⟨hkeys, hdistinct⟩, rfl⟩⟩

/-- Lists of different values have axes. -/
theorem exists_axes {sets : List (List IndexValue)}
    (h : ∀ s ∈ sets, s.Pairwise fun v w => IndexValue.compare v w ≠ .eq) :
    ∃ axes, List.Forall₂ (fun vs a => Axis.ofList vs = .ok a) sets axes := by
  induction sets with
  | nil => exact ⟨[], .nil⟩
  | cons s sets ih =>
    obtain ⟨hs, hsets⟩ := List.forall_mem_cons.mp h
    obtain ⟨a, ha⟩ := Axis.exists_ofList_iff.mpr hs
    obtain ⟨axes, haxes⟩ := ih hsets
    exact ⟨a :: axes, .cons ha haxes⟩

section

variable [Closeness]

/-- Where the map finds a key at all, the array finds the same keys. -/
theorem layout_of_mapTwin {d : Declaration} {p : Plan} {l l' : Label} {params : Params}
    (hplan : d.plan l' = .ok p) (hp : p.IsArray) {ks : List Key} {pack' : List α → Container α}
    (h : (⟨d.mapTwin, .map⟩ : Plan).layout α l params = .ok (ks, pack')) (hks : ks ≠ []) :
    ∃ pack, p.layout α l params = .ok (ks, pack) := by
  obtain ⟨ks', hdistinct, h⟩ := Outcome.bind_eq_ok_iff.mp h
  cases h
  obtain ⟨hkeys, hpairwise⟩ := distinctKeys_eq_ok_iff.mp hdistinct
  obtain ⟨sets, hsets, rfl⟩ :=
    Declaration.exists_evalAxes_of_mapTwin (hp.declaration hplan) hkeys hks
  have hsets' : (p.declaration.evalAxes params).mapError (evalFailure l) = .ok sets := by
    rw [(Declaration.plan_eq_ok_iff.mp hplan).1, hsets]
    rfl
  rw [layout]
  rcases hp with hr | hr <;> rw [hr]
  · -- a dense array has nothing to check
    exact ⟨_, Outcome.bind_eq_ok_iff.mpr ⟨sets, hsets', rfl⟩⟩
  · -- the different keys of the map make the elements of each axis different
    obtain ⟨axes, haxes⟩ := exists_axes (pairwise_of_tuples hpairwise hks)
    have hlength := length_of_evalAxes (Outcome.mapError_eq_ok_iff.mp hsets')
    have haxes' := (distinctAxes_eq_ok_iff (l := l) hlength).mpr haxes
    exact ⟨_, Outcome.bind_eq_ok_iff.mpr ⟨sets, hsets',
      Outcome.bind_eq_ok_iff.mpr ⟨axes, haxes', rfl⟩⟩⟩

/-! ## Populations -/

/-- A population without calls has not laid out any key. -/
theorem exists_layout_of_calls_ne_nil {p : Plan} {l : Label} {params : Params}
    {build : Builder σ α} {s : σ} (h : p.calls l params build s ≠ []) :
    ∃ ks pack, p.layout α l params = .ok (ks, pack) ∧ ks ≠ [] := by
  cases hlayout : p.layout α l params with
  | error e => exact absurd (calls_of_layout_error hlayout build s) h
  | ok found =>
    obtain ⟨ks, pack⟩ := found
    refine ⟨ks, pack, rfl, ?_⟩
    rintro rfl
    exact h (calls_of_layout hlayout build s)

/-- The first key of a population gets its call. -/
theorem calls_ne_nil_of_layout {p : Plan} {l : Label} {params : Params} {ks : List Key}
    {pack : List α → Container α} (h : p.layout α l params = .ok (ks, pack)) (hks : ks ≠ [])
    (build : Builder σ α) (s : σ) : p.calls l params build s ≠ [] := by
  obtain ⟨k, ks, rfl⟩ := List.exists_cons_of_ne_nil hks
  rw [calls_of_layout h, runKeys, List.map_cons, Builder.runAll]
  obtain ⟨r, s'⟩ := (build (p.declaration.bindingsAt params k)).exec s
  -- whether it succeeds or fails, the first call is made
  cases r <;> exact List.cons_ne_nil _ _

/-- Two outcomes agree when both are the same failure, or both are containers in which every key
finds the same. -/
def Agree : Except Error (Container α) → Except Error (Container α) → Prop
  | .error e, .error e' => e = e'
  | .ok c, .ok c' => ∀ k, c.get? k = c'.get? k
  | _, _ => False

/-- Plans that lay out the same keys for the same bindings make the same calls, leave the same state
and have outcomes that agree. -/
theorem agree_of_layout {p q : Plan} {l : Label} {params : Params} {ks : List Key}
    {pack pack' : List α → Container α} (hp : p.layout α l params = .ok (ks, pack))
    (hq : q.layout α l params = .ok (ks, pack'))
    (hbindings : q.declaration.bindingsAt params = p.declaration.bindingsAt params)
    (hpack : ∀ es : List α, ks.length = es.length → ∀ k, (pack' es).get? k = (pack es).get? k)
    (build : Builder σ α) (s : σ) :
    q.calls l params build s = p.calls l params build s ∧
      ((q.populate l params build).exec s).2 = ((p.populate l params build).exec s).2 ∧
      Agree ((q.populate l params build).exec s).1 ((p.populate l params build).exec s).1 := by
  -- the calls are a matter of the keys and their bindings, not of the plan
  have hrun : q.runKeys params build ks s = p.runKeys params build ks s := by
    rw [runKeys, runKeys, hbindings]
  rw [calls_of_layout hp, calls_of_layout hq, exec_populate, exec_populate, hp, hq]
  dsimp only
  rw [hrun]
  refine ⟨rfl, rfl, ?_⟩
  cases hes : Call.outcome l (p.runKeys params build ks s).1 with
  | error e => rfl
  | ok es =>
    obtain ⟨hlength, -⟩ := Builder.runAll_of_outcome_eq_ok hes
    rw [List.length_map] at hlength
    exact hpack es hlength

/-- An array and its map twin do the same. If the population of the array succeeds or fails inside
its description, then the map makes the same calls, under the same bindings, leaves the same state,
and ends in the same failure or in a container where every key finds the same. And if the map makes
a call at all, then so does the array. -/
theorem populate_mapTwin {d : Declaration} {p : Plan} {l l' : Label} (hplan : d.plan l' = .ok p)
    (hp : p.IsArray) (params : Params) (build : Builder σ α) (s : σ) :
    ∃ q, d.mapTwin.plan l' = .ok q ∧ q.representation = .map ∧
      (((∃ c, ((p.populate l params build).exec s).1 = .ok c) ∨
          ∃ call ∈ p.calls l params build s, ∃ e, call.result = .error e) →
        q.calls l params build s = p.calls l params build s ∧
          ((q.populate l params build).exec s).2 = ((p.populate l params build).exec s).2 ∧
          Agree ((q.populate l params build).exec s).1 ((p.populate l params build).exec s).1) ∧
      (q.calls l params build s ≠ [] → p.calls l params build s ≠ []) := by
  have hq := Declaration.plan_mapTwin (hp.declaration hplan) l'
  refine ⟨⟨d.mapTwin, .map⟩, hq, rfl, ?_, ?_⟩
  · intro hreached
    cases hlayout : p.layout α l params with
    | error e =>
      -- the array never reached its description
      rw [exec_populate, hlayout, calls_of_layout_error hlayout] at hreached
      rcases hreached with ⟨c, hc⟩ | ⟨call, hcall, -⟩
      · cases hc
      · cases hcall
    | ok found =>
      obtain ⟨ks, pack⟩ := found
      obtain ⟨pack', hlayout'⟩ := layout_mapTwin hplan hp hlayout
      have hbindings : d.mapTwin.bindingsAt params = p.declaration.bindingsAt params := by
        rw [(Declaration.plan_eq_ok_iff.mp hplan).1]
        rfl
      -- both containers store the same entries
      refine agree_of_layout hlayout hlayout' hbindings ?_ build s
      intro es hes
      exact ((stores_of_layout hq hlayout').2.2 es hes).get?_eq
        ((stores_of_layout hplan hlayout).2.2 es hes)
  · intro hcalls
    obtain ⟨ks, pack', hlayout', hks⟩ := exists_layout_of_calls_ne_nil hcalls
    obtain ⟨pack, hlayout⟩ := layout_of_mapTwin hplan hp hlayout' hks
    exact calls_ne_nil_of_layout hlayout hks build s

end

/-- A dense array over `1..2` whose second element fails, and its map twin. -/
theorem populate_mapTwin_failing :
    let d : Declaration := ⟨none, [⟨⟨"i"⟩, .oneTo (.var ⟨"N"⟩)⟩], none, .auto⟩
    let p : Plan := ⟨d, .dense⟩
    let params : Params := ⟨[(⟨"N"⟩, .scalar (.int 2))]⟩
    let failure : Error := ⟨.downstream, .generic, none⟩
    let build : Builder Nat Nat := fun _ =>
      ExceptT.mk fun n => (if n = 0 then .ok n else .error failure, n + 1)
    d.plan ⟨"x"⟩ = .ok p ∧ p.IsArray ∧
      ((p.populate ⟨"x"⟩ params build).exec 0).1 = .error (Label.attach ⟨"x"⟩ failure) ∧
      ∃ q, d.mapTwin.plan ⟨"x"⟩ = .ok q ∧
        q.calls ⟨"x"⟩ params build 0 = p.calls ⟨"x"⟩ params build 0 ∧
        Agree ((q.populate ⟨"x"⟩ params build).exec 0).1
          ((p.populate ⟨"x"⟩ params build).exec 0).1 := by
  intro d p params failure build
  have hplan : d.plan ⟨"x"⟩ = .ok p := rfl
  have hp : p.IsArray := .inl rfl
  have hlast : (p.calls ⟨"x"⟩ params build 0).getLast? =
      some ⟨d.bindingsAt params [.int 2], .error failure⟩ := rfl
  obtain ⟨q, hq, -, hsame, -⟩ := populate_mapTwin hplan hp params build 0
  obtain ⟨hcalls, -, hagree⟩ := hsame (.inr ⟨_, List.mem_of_getLast? hlast, failure, rfl⟩)
  exact ⟨hplan, hp, rfl, q, hq, hcalls, hagree⟩

end Plan

end AlgebraicModel
