import AlgebraicModel.Proofs.Container.Contents
import AlgebraicModel.Proofs.Population.Calls
import AlgebraicModel.Proofs.Population.Keys

/-!
# A container holds what its description built

A population first lays out its elements: it finds their keys and the way to pack them
(`Plan.layout`). Then it makes one call for each key, and then it packs the elements that came back
(`Plan.exec_populate`). If the keys are refused, no call is made; otherwise the calls decide the
outcome and the state. The packing is where the four representations differ, and whichever it is,
the container stores each element under the key of its call and holds nothing else
(`Plan.populate_stores`).
-/

set_option autoImplicit false

namespace AlgebraicModel

namespace Plan

variable {σ α : Type}

/-- The keys of a plan, in the order in which their elements are built, with the container made from
the elements, or what is wrong with the keys. -/
def layout [Closeness] (p : Plan) (α : Type) (l : Label) (params : Params) :
    Except Error (List Key × (List α → Container α)) :=
  match p.representation with
  | .scalar => return ([[]], fun es => (es.head?.map .scalar).getD (.map ∅))
  | .dense => do
    let sets ← (p.declaration.evalAxes params).mapError (evalFailure l)
    return (tuples sets, fun es => .dense ⟨sets.map List.length, es.toArray⟩)
  | .axis => do
    let sets ← (p.declaration.evalAxes params).mapError (evalFailure l)
    let axes ← p.distinctAxes l sets
    return (tuples sets, fun es => .axis ⟨axes, es.toArray⟩)
  | .map => do
    let keys ← p.distinctKeys l params
    return (keys, fun es => .map (.ofList (keys.zip es) Key.compare))

/-- The calls of a population for a list of keys, and the state after them. -/
def runKeys (p : Plan) (params : Params) (build : Builder σ α) (ks : List Key) (s : σ) :
    List (Call α) × σ :=
  build.runAll (ks.map (p.declaration.bindingsAt params)) s

/-- Building the elements of a list of keys and packing them. -/
theorem exec_buildAll_bind (p : Plan) (l : Label) (params : Params) (build : Builder σ α)
    (ks : List Key) (pack : List α → Container α) (s : σ) :
    (p.buildAll l params build ks >>= fun es => pure (pack es)).exec s =
      ((Call.outcome l (p.runKeys params build ks s).1).map pack,
        (p.runKeys params build ks s).2) := by
  rw [BuildM.exec_bind, exec_buildAll, runKeys]
  cases Call.outcome l (build.runAll (ks.map (p.declaration.bindingsAt params)) s).1 <;> rfl

section

variable [Closeness]

/-- A population lays out its elements, makes the calls for the keys and packs the elements. -/
theorem exec_populate (p : Plan) (l : Label) (params : Params) (build : Builder σ α) (s : σ) :
    (p.populate l params build).exec s =
      match p.layout α l params with
      | .error e => (.error e, s)
      | .ok (ks, pack) =>
        ((Call.outcome l (p.runKeys params build ks s).1).map pack,
          (p.runKeys params build ks s).2) := by
  rw [populate, layout]
  cases p.representation with
  | scalar =>
    -- the empty key binds nothing
    have hbindings : p.declaration.bindingsAt params [] = .ofParams params :=
      Bindings.pushAll_nil_right _ _
    change _ = ((Call.outcome l (p.runKeys params build [[]] s).1).map _,
      (p.runKeys params build [[]] s).2)
    rw [BuildM.exec_bind, BuildM.exec_labelled, runKeys, List.map_singleton, hbindings,
      Builder.runAll]
    obtain ⟨r, s'⟩ := (build (.ofParams params)).exec s
    cases r <;> rfl
  | dense =>
    simp only [BuildM.exec_ofExcept_bind]
    cases (p.declaration.evalAxes params).mapError (evalFailure l) with
    | error e => rfl
    | ok sets => exact p.exec_buildAll_bind l params build (tuples sets) _ s
  | axis =>
    simp only [BuildM.exec_ofExcept_bind]
    cases (p.declaration.evalAxes params).mapError (evalFailure l) with
    | error e => rfl
    | ok sets =>
      simp only [bind, Except.bind]
      cases p.distinctAxes l sets with
      | error e => rfl
      | ok axes => exact p.exec_buildAll_bind l params build (tuples sets) _ s
  | map =>
    simp only [BuildM.exec_ofExcept_bind]
    cases p.distinctKeys l params with
    | error e => rfl
    | ok ks => exact p.exec_buildAll_bind l params build ks _ s

/-- A log changes nothing: with a traced description the outcome and the state are the same. -/
theorem exec_populate_traced (p : Plan) (l : Label) (params : Params) (build : Builder σ α)
    (log : List (Call α)) (s : σ) :
    (p.populate l params build.traced).exec (log, s) =
      (((p.populate l params build).exec s).1,
        (log ++ p.calls l params build s, ((p.populate l params build).exec s).2)) := by
  rw [calls, exec_populate, exec_populate, exec_populate]
  cases p.layout α l params with
  | error e => simp
  | ok found => simp [runKeys, Builder.runAll_traced]

theorem calls_of_layout_error {p : Plan} {l : Label} {params : Params} {e : Error}
    (h : p.layout α l params = .error e) (build : Builder σ α) (s : σ) :
    p.calls l params build s = [] := by
  rw [calls, exec_populate, h]

theorem calls_of_layout {p : Plan} {l : Label} {params : Params} {ks : List Key}
    {pack : List α → Container α} (h : p.layout α l params = .ok (ks, pack)) (build : Builder σ α)
    (s : σ) : p.calls l params build s = (p.runKeys params build ks s).1 := by
  rw [calls, exec_populate, h]
  simp [runKeys, Builder.runAll_traced]

/-! ## What the packing makes -/

theorem length_of_evalAxes {d : Declaration} {params : Params} {sets : List (List IndexValue)}
    (h : d.evalAxes params = .ok sets) : sets.length = d.indexNames.length := by
  have hlength := (Outcome.mapM_eq_ok_iff.mp h).length_eq
  rw [← hlength, Declaration.indexSets, Declaration.indexNames, List.length_map, List.length_map]

end

/-- The axes of a plan are those of its index sets. -/
theorem distinctAxes_eq_ok_iff {p : Plan} {l : Label} {sets : List (List IndexValue)}
    {axes : List Axis} (hlength : sets.length = p.declaration.indexNames.length) :
    p.distinctAxes l sets = .ok axes ↔
      List.Forall₂ (fun vs a => Axis.ofList vs = .ok a) sets axes := by
  have hsets : (p.declaration.indexNames.zip sets).map Prod.snd = sets :=
    List.map_snd_zip (by omega)
  rw [distinctAxes, Outcome.mapM_eq_ok_iff]
  conv => rhs; rw [← hsets, List.forall₂_map_left_iff]
  simp only [Outcome.mapError_eq_ok_iff]

/-- The keys of a map are those that the enumeration gives, if no two of them are equal. -/
theorem distinctKeys_eq_ok_iff [Closeness] {p : Plan} {l : Label} {params : Params}
    {ks : List Key} :
    p.distinctKeys l params = .ok ks ↔
      p.declaration.enumerateKeys params = .ok ks ∧
        ks.Pairwise fun k k' => Key.compare k k' ≠ .eq := by
  rw [← Key.firstRepeat?_eq_none_iff]
  constructor
  · intro h
    obtain ⟨ks', hks, h⟩ := Outcome.bind_eq_ok_iff.mp h
    cases hrepeat : Key.firstRepeat? ks' with
    | some k =>
      rw [hrepeat] at h
      cases h
    | none =>
      rw [hrepeat] at h
      cases h
      exact ⟨Outcome.mapError_eq_ok_iff.mp hks, hrepeat⟩
  · rintro ⟨hks, hrepeat⟩
    refine Outcome.bind_eq_ok_iff.mpr ⟨ks, Outcome.mapError_eq_ok_iff.mpr hks, ?_⟩
    rw [hrepeat]
    rfl

/-- Whatever the representation, the keys have one value for each index, no two of them are equal,
and the packed container stores the elements under their keys. -/
theorem stores_of_layout [Closeness] {d : Declaration} {p : Plan} {l l' : Label} {params : Params}
    (hplan : d.plan l' = .ok p) {ks : List Key} {pack : List α → Container α}
    (h : p.layout α l params = .ok (ks, pack)) :
    (∀ k ∈ ks, k.length = p.declaration.indexNames.length) ∧
      (ks.Pairwise fun k k' => Key.compare k k' ≠ .eq) ∧
      ∀ es : List α, ks.length = es.length → (pack es).Stores (ks.zip es) := by
  obtain ⟨rfl, hrep⟩ := Declaration.plan_eq_ok_iff.mp hplan
  rw [layout] at h
  rcases Declaration.representation_cases hrep with
    ⟨hr, hindices⟩ | ⟨hr, harray, hone⟩ | ⟨hr, harray⟩ | hr <;> rw [hr] at h
  · -- a single element
    cases h
    refine ⟨by simp [Declaration.indexNames, hindices], List.pairwise_singleton _ _, ?_⟩
    intro es hes
    obtain ⟨a, rfl⟩ := List.length_eq_one_iff.mp hes.symm
    exact Container.stores_scalar a
  · -- a dense array, whose sets are all `1..n`
    obtain ⟨sets, hsets, h⟩ := Outcome.bind_eq_ok_iff.mp h
    rw [Outcome.mapError_eq_ok_iff] at hsets
    cases h
    have hupper : ∀ e ∈ p.declaration.indexSets, e.oneBasedUpper?.isSome = true := by
      simpa [Declaration.allOneBased, Declaration.indexSets] using hone
    obtain ⟨ns, rfl⟩ := exists_indexSets hupper hsets
    refine ⟨fun k hk => ?_, (DenseArray.locates_key ns).pairwise, fun es =>
      Container.stores_dense ns⟩
    rw [length_of_mem_tuples hk, length_of_evalAxes hsets]
  · -- an array over axes, each of which has different elements
    obtain ⟨sets, hsets, h⟩ := Outcome.bind_eq_ok_iff.mp h
    obtain ⟨axes, haxes, h⟩ := Outcome.bind_eq_ok_iff.mp h
    rw [Outcome.mapError_eq_ok_iff] at hsets
    rw [distinctAxes_eq_ok_iff (length_of_evalAxes hsets)] at haxes
    cases h
    refine ⟨fun k hk => ?_, (AxisArray.locates_key haxes).pairwise, fun es =>
      Container.stores_axis haxes⟩
    rw [length_of_mem_tuples hk, length_of_evalAxes hsets]
  · -- a map, whose keys have been compared
    obtain ⟨ks', hks, h⟩ := Outcome.bind_eq_ok_iff.mp h
    obtain ⟨henumerate, hdistinct⟩ := distinctKeys_eq_ok_iff.mp hks
    cases h
    refine ⟨fun k hk => ?_, hdistinct, fun es => Container.stores_map hdistinct⟩
    rw [length_of_mem_enumerate henumerate k hk, Declaration.indexNames, List.length_map,
      Bindings.key_ofParams, List.length_nil, Nat.zero_add]

/-- The calls that all gave back an element pair the keys with the elements. -/
theorem runKeys_of_outcome {p : Plan} {l : Label} {params : Params} {build : Builder σ α}
    {ks : List Key} {s : σ} {es : List α}
    (hlength : ∀ k ∈ ks, k.length = p.declaration.indexNames.length)
    (h : Call.outcome l (p.runKeys params build ks s).1 = .ok es) :
    ks.length = es.length ∧
      (p.runKeys params build ks s).1.map (fun call => (call.bindings.key, call.result)) =
        (ks.zip es).map (fun entry => (entry.1, .ok entry.2)) := by
  obtain ⟨hes, hcalls⟩ := Builder.runAll_of_outcome_eq_ok h
  rw [List.length_map] at hes
  refine ⟨hes, ?_⟩
  -- the key of a call can be read off its bindings
  have hkey : ∀ k ∈ ks, (p.declaration.bindingsAt params k).key = k := by
    intro k hk
    exact Declaration.key_bindingsAt (hlength k hk) params
  rw [runKeys, hcalls, List.map_zipWith, List.zipWith_map_left, ← List.map_uncurry_zip_eq_zipWith]
  apply List.map_congr_left
  rintro ⟨k, a⟩ hentry
  exact congrArg (·, Except.ok a) (hkey k (List.of_mem_zip hentry).1)

/-- The container that a population gives back holds exactly what its description built: the calls
all gave back an element, and these elements, each under the key of its call, are the contents of
the container. -/
theorem populate_stores [Closeness] {d : Declaration} {p : Plan} {l l' : Label} {params : Params}
    {build : Builder σ α} {s s' : σ} {c : Container α} (hplan : d.plan l' = .ok p)
    (hrun : (p.populate l params build).exec s = (.ok c, s')) :
    ∃ entries : List (Key × α),
      (p.calls l params build s).map (fun call => (call.bindings.key, call.result)) =
        entries.map (fun entry => (entry.1, .ok entry.2)) ∧
      c.Stores entries := by
  rw [exec_populate] at hrun
  cases hlayout : p.layout α l params with
  | error e =>
    rw [hlayout] at hrun
    cases hrun
  | ok found =>
    obtain ⟨ks, pack⟩ := found
    rw [hlayout] at hrun
    obtain ⟨hlength, -, hstores⟩ := stores_of_layout hplan hlayout
    obtain ⟨es, hes, rfl⟩ := Outcome.map_eq_ok_iff.mp (congrArg Prod.fst hrun)
    obtain ⟨hkses, hcalls⟩ := runKeys_of_outcome hlength hes
    refine ⟨ks.zip es, ?_, hstores es hkses⟩
    rw [calls_of_layout hlayout, hcalls]

/-- A dense array over `1..2` whose elements are built by a counter. -/
theorem populate_stores_counter :
    let d : Declaration := ⟨none, [⟨⟨"i"⟩, .oneTo (.var ⟨"N"⟩)⟩], none, .auto⟩
    let params : Params := ⟨[(⟨"N"⟩, .scalar (.int 2))]⟩
    let build : Builder Nat Nat := fun _ => ExceptT.mk fun n => (.ok n, n + 1)
    d.plan ⟨"x"⟩ = .ok ⟨d, .dense⟩ ∧
      ((⟨d, .dense⟩ : Plan).populate ⟨"x"⟩ params build).exec 0 = (.ok (.dense ⟨[2], #[0, 1]⟩), 2) ∧
      ∃ entries : List (Key × Nat),
        ((⟨d, .dense⟩ : Plan).calls ⟨"x"⟩ params build 0).map
            (fun call => (call.bindings.key, call.result)) =
          entries.map (fun entry => (entry.1, .ok entry.2)) ∧
        (Container.dense ⟨[2], #[0, 1]⟩).Stores entries := by
  intro d params build
  have hplan : d.plan ⟨"x"⟩ = .ok ⟨d, .dense⟩ := rfl
  have hrun : ((⟨d, .dense⟩ : Plan).populate ⟨"x"⟩ params build).exec 0 =
      (.ok (.dense ⟨[2], #[0, 1]⟩), 2) := rfl
  exact ⟨hplan, hrun, populate_stores hplan hrun⟩

end Plan

end AlgebraicModel
