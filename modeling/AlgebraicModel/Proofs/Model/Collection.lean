import AlgebraicModel.Proofs.Model.Tracing
import AlgebraicModel.Proofs.Population.MapTwin

/-!
# A collection is assembled step by step

An assembly that succeeds has a plan, a population that added the elements to the model, and a name
that was free (`Declaration.exists_of_assemble`). It has asked its description once for each
enumerated key, in order, and each answer took the model one step further, from which the element
came (`Steps`). The container stores the elements under the keys
(`Declaration.exists_steps_of_assemble`).

What a step is, and with it what a collection does to a model, is left to the kind of collection.
-/

set_option autoImplicit false

namespace AlgebraicModel

variable {σ α β γ : Type}

/-! ## Populations that succeed -/

namespace Plan

variable [Closeness]

/-- Whatever the representation, the keys are those that the declaration enumerates. -/
theorem enumerateKeys_of_layout {d : Declaration} {p : Plan} {l l' : Label} {params : Params}
    (hplan : d.plan l' = .ok p) {ks : List Key} {pack : List α → Container α}
    (h : p.layout α l params = .ok (ks, pack)) : d.enumerateKeys params = .ok ks := by
  obtain ⟨rfl, hrep⟩ := Declaration.plan_eq_ok_iff.mp hplan
  by_cases harray : p.IsArray
  · -- the tuples of the index sets, none of which depends on another
    obtain ⟨sets, hsets, rfl⟩ := exists_evalAxes_of_layout harray h
    have hkeys := enumerate_eq_tuples (harray.declaration hplan).independent hsets
    rw [Declaration.enumerateKeys, (harray.declaration hplan).unconditional, hkeys]
    simp
  · rw [layout] at h
    cases hr : p.representation with
    | scalar =>
      rw [hr] at h
      cases h
      have hindices := (Declaration.eq_scalar_iff hrep).mp hr
      rw [Declaration.enumerateKeys, hindices, Declaration.filter_eq_none_of_nil hindices hrep]
      rfl
    | dense => exact absurd (.inl hr) harray
    | axis => exact absurd (.inr hr) harray
    | map =>
      rw [hr] at h
      obtain ⟨ks', hks, h⟩ := Outcome.bind_eq_ok_iff.mp h
      cases h
      exact (distinctKeys_eq_ok_iff.mp hks).1

/-- The container is a single element just where there are no indices. -/
theorem scalar_iff_of_layout {d : Declaration} {p : Plan} {l l' : Label} {params : Params}
    (hplan : d.plan l' = .ok p) {ks : List Key} {pack : List α → Container α}
    (h : p.layout α l params = .ok (ks, pack)) {es : List α} (hes : ks.length = es.length) :
    (∃ a, pack es = .scalar a) ↔ d.indices = [] := by
  obtain ⟨rfl, hrep⟩ := Declaration.plan_eq_ok_iff.mp hplan
  rw [← Declaration.eq_scalar_iff hrep]
  rw [layout] at h
  cases hr : p.representation with
  | scalar =>
    rw [hr] at h
    cases h
    obtain ⟨a, rfl⟩ := List.length_eq_one_iff.mp hes.symm
    exact iff_of_true ⟨a, rfl⟩ rfl
  | dense =>
    rw [hr] at h
    obtain ⟨sets, -, h⟩ := Outcome.bind_eq_ok_iff.mp h
    cases h
    exact iff_of_false (by simp) (by simp)
  | axis =>
    rw [hr] at h
    obtain ⟨sets, -, h⟩ := Outcome.bind_eq_ok_iff.mp h
    obtain ⟨axes, -, h⟩ := Outcome.bind_eq_ok_iff.mp h
    cases h
    exact iff_of_false (by simp) (by simp)
  | map =>
    rw [hr] at h
    obtain ⟨ks', -, h⟩ := Outcome.bind_eq_ok_iff.mp h
    cases h
    exact iff_of_false (by simp) (by simp)

/-- A population that succeeds has built one element for each enumerated key, and its container
stores each element under its key. -/
theorem exists_of_populate {d : Declaration} {p : Plan} {l l' : Label} {params : Params}
    {build : Builder σ α} {s s' : σ} {c : Container α} (hplan : d.plan l' = .ok p)
    (hrun : (p.populate l params build).exec s = (.ok c, s')) :
    ∃ ks es, d.enumerateKeys params = .ok ks ∧ (∀ k ∈ ks, k.length = d.indexNames.length) ∧
      ks.length = es.length ∧
      build.runAll (ks.map (d.bindingsAt params)) s =
        (List.zipWith (fun b a => ⟨b, .ok a⟩) (ks.map (d.bindingsAt params)) es, s') ∧
      ((∃ a, c = .scalar a) ↔ d.indices = []) ∧ c.Stores (ks.zip es) := by
  rw [exec_populate] at hrun
  cases hlayout : p.layout α l params with
  | error e =>
    rw [hlayout] at hrun
    cases hrun
  | ok found =>
    obtain ⟨ks, pack⟩ := found
    have hkeys := enumerateKeys_of_layout hplan hlayout
    obtain ⟨hlength, -, hstores⟩ := stores_of_layout hplan hlayout
    obtain ⟨rfl, -⟩ := Declaration.plan_eq_ok_iff.mp hplan
    rw [hlayout] at hrun
    obtain ⟨hout, hstate⟩ := Prod.mk.inj hrun
    -- the container is packed from elements, so there was no call that failed
    obtain ⟨es, hes, rfl⟩ := Outcome.map_eq_ok_iff.mp hout
    obtain ⟨hkses, hcalls⟩ := Builder.runAll_of_outcome_eq_ok hes
    rw [List.length_map] at hkses
    have hscalar := scalar_iff_of_layout hplan hlayout hkses
    exact ⟨ks, es, hkeys, hlength, hkses, Prod.ext hcalls hstate, hscalar, hstores es hkses⟩

end Plan

/-! ## Assemblies -/

namespace Model

/-- The names of the model `m'` are those of `m` with one more that stands for an object, if there was
a name to be registered. -/
structure Registers (name : Option Name) (o : NamedObject) (m m' : Model α) : Prop where
  free : ∀ n, name = some n → m.lookup? n = none
  registered : ∀ n, name = some n → m'.lookup? n = some o
  others : ∀ n, name ≠ some n → m'.lookup? n = m.lookup? n

/-- A free name may be registered after a model has grown by entries that have no effect on names. -/
theorem registers_named {name : Option Name} {m m₁ : Model α} (hnames : m₁.names = m.names)
    (hfree : ∀ n ∈ name, m₁.lookup? n = none) (o : NamedObject) :
    Registers name o m (m₁.named name o) := by
  have hlookup (n : Name) : m₁.lookup? n = m.lookup? n := by rw [lookup?, lookup?, hnames]
  refine ⟨?_, ?_, ?_⟩
  · intro n hn
    rw [← hlookup]
    exact hfree n hn
  · intro n hn
    rw [lookup?_named, if_pos hn]
  · intro n hn
    rw [lookup?_named, if_neg hn, hlookup]

/-- What a model keeps of the name of the element at a key: the name with the key, or the name alone
where there are no indices. -/
theorem keptName_elementName (m : Model α) (d : Declaration) (k : Key) :
    m.keptName (d.elementName k) =
      if m.stringNames then d.name.map fun n => if d.indices = [] then n else n.subscript k.text
      else none := by
  rw [keptName, Declaration.elementName]
  by_cases hindices : d.indices = []
  · simp [hindices, Declaration.isScalar]
  · simp [hindices, Declaration.isScalar_eq_false hindices]

end Model

theorem Declaration.exists_of_assemble [Closeness] {d : Declaration} {l : Label} {params : Params}
    {build : Builder (Model α × σ) γ} {object : Container γ → NamedObject} {m m' : Model α}
    {s s' : σ} {c : Container γ}
    (hrun : (d.assemble l params build object).exec (m, s) = (.ok c, (m', s'))) :
    ∃ p m₁, d.plan l = .ok p ∧ (p.populate l params build).exec (m, s) = (.ok c, (m₁, s')) ∧
      (∀ n ∈ d.name, m₁.lookup? n = none) ∧ m' = m₁.named d.name (object c) := by
  obtain ⟨p, ms, hplan, hrun⟩ := BuildM.exec_bind_eq_ok_iff.mp hrun
  obtain ⟨hok, rfl⟩ := Prod.mk.inj hplan
  obtain ⟨c₁, ⟨m₁, s₁⟩, hpopulate, hrun⟩ := BuildM.exec_bind_eq_ok_iff.mp hrun
  obtain ⟨_, ms, hname, hrun⟩ := BuildM.exec_bind_eq_ok_iff.mp hrun
  cases hrun
  rcases Model.exec_pushName l d.name (object c) m₁ s₁ with ⟨n, -, -, herror⟩ | ⟨hfree, hregister⟩
  · rw [herror] at hname
    cases hname
  · rw [hregister] at hname
    cases hname
    exact ⟨p, m₁, hok, hpopulate, hfree, rfl⟩

/-! ## Steps -/

/-- Elements that were added to a model one after the other: `step b x r m m'` says that under the
bindings `b` the description gave `x`, which took the model from `m` to `m'` and gave the
element `r`. -/
inductive Steps (step : Bindings → β → γ → Model α → Model α → Prop) :
    List Bindings → List β → List γ → Model α → Model α → Prop
  | nil (m : Model α) : Steps step [] [] [] m m
  | cons {b : Bindings} {x : β} {r : γ} {m m' m'' : Model α} {bs : List Bindings} {xs : List β}
      {rs : List γ} (hstep : step b x r m m') (hsteps : Steps step bs xs rs m' m'') :
      Steps step (b :: bs) (x :: xs) (r :: rs) m m''

/-- The building of an element asks the description and, where it succeeds, takes the model one step
further. -/
def IsStep (step : Bindings → β → γ → Model α → Model α → Prop)
    (build : Builder (Model α × List (Call β) × σ) γ) : Prop :=
  ∀ b m calls s r m' calls' s',
    (build b).exec (m, (calls, s)) = (.ok r, (m', (calls', s'))) →
      ∃ x, calls' = calls ++ [⟨b, .ok x⟩] ∧ step b x r m m'

section Steps

variable {step : Bindings → β → γ → Model α → Model α → Prop}
  {build : Builder (Model α × List (Call β) × σ) γ}

/-- Elements that were all built were added step by step, and the log has their descriptions. -/
theorem exists_steps (hbuild : IsStep step build) {bs : List Bindings} {rs : List γ}
    {m m' : Model α} {calls calls' : List (Call β)} {s s' : σ} (hlength : bs.length = rs.length)
    (hrun : build.runAll bs (m, (calls, s)) =
      (List.zipWith (fun b r => ⟨b, .ok r⟩) bs rs, (m', (calls', s')))) :
    ∃ xs, bs.length = xs.length ∧
      calls' = calls ++ List.zipWith (fun b x => ⟨b, .ok x⟩) bs xs ∧ Steps step bs xs rs m m' := by
  induction bs generalizing rs m calls s with
  | nil =>
    obtain rfl := List.length_eq_zero_iff.mp hlength.symm
    cases hrun
    exact ⟨[], rfl, (List.append_nil _).symm, .nil _⟩
  | cons b bs ih =>
    cases rs with
    | nil => cases hlength
    | cons r rs =>
      rw [Builder.runAll, List.zipWith_cons_cons] at hrun
      obtain ⟨⟨out, m₁, calls₁, s₁⟩, hexec⟩ : ∃ y, (build b).exec (m, (calls, s)) = y := ⟨_, rfl⟩
      rw [hexec] at hrun
      cases out with
      | error e => simp at hrun
      | ok r₁ =>
        -- the first element is one step, and the others go on from there
        simp only [Prod.mk.injEq, List.cons.injEq, Call.mk.injEq, true_and, Except.ok.injEq] at hrun
        obtain ⟨⟨rfl, hcalls⟩, hstate⟩ := hrun
        obtain ⟨x, rfl, hx⟩ := hbuild b m calls s r₁ m₁ calls₁ s₁ hexec
        obtain ⟨xs, hxs, hlog, hsteps⟩ := ih (Nat.succ.inj hlength) (Prod.ext hcalls hstate)
        refine ⟨x :: xs, congrArg (· + 1) hxs, ?_, .cons hx hsteps⟩
        rw [hlog, List.append_assoc, List.singleton_append, List.zipWith_cons_cons]

/-- An assembly that succeeds has asked its description once for each enumerated key, each answer
being one step of the model, and its container stores the elements under the keys. -/
theorem Declaration.exists_steps_of_assemble [Closeness] {d : Declaration} {l : Label}
    {params : Params} {plain : Builder (Model α × σ) γ} {object : Container γ → NamedObject}
    {m m' : Model α} {s s' : σ} {c : Container γ} (hbuild : IsStep step build)
    (hplain : ∀ b, BuildM.Projects withoutLog (build b) (plain b))
    (hrun : (d.assemble l params plain object).exec (m, s) = (.ok c, (m', s'))) :
    ∃ ks xs rs m₁, d.enumerateKeys params = .ok ks ∧
      (ks.map (d.bindingsAt params)).map Bindings.key = ks ∧ ks.length = xs.length ∧
      ks.length = rs.length ∧
      Model.logged (d.assemble l params build object) m s =
        List.zipWith (fun k x => ⟨d.bindingsAt params k, .ok x⟩) ks xs ∧
      Steps step (ks.map (d.bindingsAt params)) xs rs m m₁ ∧
      ((∃ r, c = .scalar r) ↔ d.indices = []) ∧ c.Stores (ks.zip rs) ∧
      (∀ n ∈ d.name, m₁.lookup? n = none) ∧ m' = m₁.named d.name (object c) := by
  -- the traced assembly ends in the same way, and its log says what the description gave back
  have htraced := Model.exec_of_projects (d.projects_assemble hplain l params object) m s
  rw [hrun] at htraced
  obtain ⟨p, m₁, hplan, hpopulate, hfree, hnamed⟩ := exists_of_assemble htraced
  obtain ⟨ks, rs, hkeys, hlength, hrs, hcalls, hscalar, hstores⟩ :=
    Plan.exists_of_populate hplan hpopulate
  obtain ⟨xs, hxs, hlog, hsteps⟩ := exists_steps hbuild (by rwa [List.length_map]) hcalls
  rw [List.length_map] at hxs
  rw [List.nil_append, List.zipWith_map_left] at hlog
  refine ⟨ks, xs, rs, m₁, hkeys, ?_, hxs, hrs, hlog, hsteps, hscalar, hstores, hfree, hnamed⟩
  have hkeyed : ∀ k ∈ ks, (Bindings.key ∘ d.bindingsAt params) k = id k := by
    intro k hk
    exact key_bindingsAt (hlength k hk) params
  rw [List.map_map, List.map_congr_left hkeyed, List.map_id]

end Steps

end AlgebraicModel
