import AlgebraicModel.Proofs.Model.Assembly
import AlgebraicModel.Proofs.Model.Collection

/-!
# What a collection of constraints adds to a model

The building of one element asks the description for a relation, compiles it, and adds the
constraints of the group that comes out, of which there may be one, several or none
(`Declaration.isStep_addConstraintsAt`). Over all elements the groups are appended in the order of
the keys, and the references count up through all of them without a gap
(`Declaration.constraints_of_steps`, `ConstraintGroup.flatMap_refsFrom`).

The container holds the references of each group under the key of its call, and the name of the
declaration stands for all references, taken in the order of the container
(`Declaration.addConstraints_appends`).
-/

set_option autoImplicit false

namespace AlgebraicModel

variable {α σ : Type}

/-! ## Groups of constraints -/

namespace ConstraintGroup

/-- The name of the constraint at position `i` of a group, given that of the group: those of a
broadcast are numbered from one. -/
def nameAt (name : Name) (i : Nat) : ConstraintGroup α → Name
  | single _ => name
  | broadcast _ => name.subscript (toString (i + 1))

/-- The constraints of a group as a model records them. -/
def entries (m : Model α) (name : Option Name) (g : ConstraintGroup α) :
    List (Entry (Constraint α)) :=
  g.toList.zipIdx.map fun (c, i) => ⟨c, m.keptName (name.map fun n => g.nameAt n i)⟩

/-- The references to the constraints of a group, of which the first has the number `n`. -/
def refs (id n : Nat) : ConstraintGroup α → ConstraintRefs
  | single _ => .single ⟨id, n⟩
  | broadcast cs => .broadcast ((List.range' n cs.length).map (ConstraintRef.mk id))

/-- The references to the constraints of groups that come one after the other. -/
def refsFrom (id : Nat) : Nat → List (ConstraintGroup α) → List ConstraintRefs
  | _, [] => []
  | n, g :: gs => g.refs id n :: refsFrom id (n + g.toList.length) gs

theorem length_entries (m : Model α) (name : Option Name) (g : ConstraintGroup α) :
    (g.entries m name).length = g.toList.length := by
  rw [entries, List.length_map, List.length_zipIdx]

theorem size_append_entries (before : Array (Entry (Constraint α))) (m : Model α)
    (name : Option Name) (g : ConstraintGroup α) :
    (before ++ (g.entries m name).toArray).size = before.size + g.toList.length := by
  rw [Array.size_append, ← g.length_entries m name]
  rfl

theorem toList_refs (id n : Nat) (g : ConstraintGroup α) :
    (g.refs id n).toList = (List.range' n g.toList.length).map (ConstraintRef.mk id) := by
  cases g with
  | single c => rfl
  | broadcast cs => rfl

/-- The references of a group count on from those of the groups before it. -/
theorem getElem?_refsFrom (id n : Nat) {groups : List (ConstraintGroup α)} {i : Nat}
    {g : ConstraintGroup α} (hg : groups[i]? = some g) :
    (refsFrom id n groups)[i]? =
      some (g.refs id (n + ((groups.take i).flatMap toList).length)) := by
  induction groups generalizing n i with
  | nil => cases hg
  | cons g₀ groups ih =>
    cases i with
    | zero =>
      cases hg
      rfl
    | succ i =>
      rw [refsFrom, List.getElem?_cons_succ, ih _ hg, List.take_succ_cons, List.flatMap_cons,
        List.length_append, Nat.add_assoc]

/-- The references of all groups count up without a gap. -/
theorem flatMap_refsFrom (id n : Nat) (groups : List (ConstraintGroup α)) :
    (refsFrom id n groups).flatMap ConstraintRefs.toList =
      (List.range' n (groups.flatMap toList).length).map (ConstraintRef.mk id) := by
  induction groups generalizing n with
  | nil => rfl
  | cons g gs ih =>
    -- the numbers of the others begin where those of the first group end
    have hrange := @List.range'_append n g.toList.length (gs.flatMap toList).length 1
    rw [Nat.one_mul] at hrange
    rw [refsFrom, List.flatMap_cons, ih, toList_refs, List.flatMap_cons, List.length_append, ← hrange,
      List.map_append]

end ConstraintGroup

namespace Model

/-- Appended constraints are denoted by the references that count on from those before. -/
theorem constraintEntry?_appended {m : Model α} {before after : Array (Entry (Constraint α))}
    {new : List (Entry (Constraint α))}
    (h : m.constraints = before ++ new.toArray ++ after) {i : Nat} (hi : i < new.length) :
    constraintEntry? m ⟨m.id, before.size + i⟩ = new[i]? := by
  unfold constraintEntry?
  rw [if_pos rfl, h, Array.getElem?_append_left (by simpa using hi),
    Array.getElem?_append_right (Nat.le_add_right _ _), Nat.add_sub_cancel_left,
    List.getElem?_toArray]

/-- The references of a group denote its constraints, wherever the group was appended. -/
theorem map_constraintEntry?_refs {m m' : Model α} {before after : Array (Entry (Constraint α))}
    {name : Option Name} {g : ConstraintGroup α}
    (h : m'.constraints = before ++ (g.entries m name).toArray ++ after) :
    (g.refs m'.id before.size).toList.map (fun c => constraintEntry? m' c) =
      (g.entries m name).map some := by
  rw [ConstraintGroup.toList_refs, ← g.length_entries m name]
  -- both lists are as long as the group, and are compared place by place
  apply List.ext_getElem?
  intro i
  rw [List.getElem?_map, List.getElem?_map, List.getElem?_map]
  by_cases hi : i < (g.entries m name).length
  · rw [List.getElem?_range' hi, Nat.one_mul, List.getElem?_eq_getElem hi]
    simp [constraintEntry?_appended h hi]
  · rw [List.getElem?_eq_none (by simpa using hi), List.getElem?_eq_none (by simpa using hi)]
    rfl

/-- The references of groups that were appended one after the other denote their constraints. -/
theorem map_constraintEntry?_refsFrom {m m' : Model α} {names : Key → Option Name} {ks : List Key}
    {groups : List (ConstraintGroup α)} {before : Array (Entry (Constraint α))}
    (h : m'.constraints = before ++
      (List.zipWith (fun k g => ConstraintGroup.entries m (names k) g) ks groups).flatten.toArray)
    {i : Nat} {k : Key} {g : ConstraintGroup α} {r : ConstraintRefs} (hk : ks[i]? = some k)
    (hg : groups[i]? = some g)
    (hr : (ConstraintGroup.refsFrom m'.id before.size groups)[i]? = some r) :
    r.toList.map (fun c => constraintEntry? m' c) = (g.entries m (names k)).map some := by
  induction ks generalizing before groups i with
  | nil => cases hk
  | cons k₀ ks ih =>
    cases groups with
    | nil => cases hg
    | cons g₀ groups =>
      rw [List.zipWith_cons_cons, List.flatten_cons] at h
      rw [ConstraintGroup.refsFrom] at hr
      have happended : m'.constraints = before ++ (g₀.entries m (names k₀)).toArray ++
          (List.zipWith (fun k g => ConstraintGroup.entries m (names k) g) ks groups).flatten.toArray := by
        rw [h, ← List.append_toArray, Array.append_assoc]
      cases i with
      | zero =>
        -- the first group, behind which the others stand
        cases hk
        cases hg
        cases hr
        exact map_constraintEntry?_refs happended
      | succ i =>
        -- a later one, behind the first
        refine ih happended hk hg ?_
        rw [ConstraintGroup.size_append_entries]
        exact hr

/-- What a model keeps of the name of a constraint in the group at a key. -/
theorem keptName_nameAt (m : Model α) (d : Declaration) (k : Key) (g : ConstraintGroup α) (j : Nat) :
    m.keptName ((d.elementName k).map fun n => g.nameAt n j) =
      if m.stringNames then
        d.name.map fun n => g.nameAt (if d.indices = [] then n else n.subscript k.text) j
      else none := by
  have hname := m.keptName_elementName d k
  rw [keptName] at hname ⊢
  by_cases hkeep : m.stringNames = true
  · rw [if_pos hkeep, if_pos hkeep] at hname
    rw [if_pos hkeep, if_pos hkeep, hname, Option.map_map]
    rfl
  · rw [if_neg hkeep, if_neg hkeep]

/-! ## Adding a group -/

/-- Constraints that are all accepted are appended in order. -/
theorem of_exec_pushConstraints {ι : Type} (content : ι → Constraint α) (name : ι → Option Name)
    {items : List ι} {m m' : Model α} {s s' : σ} {refs : List ConstraintRef}
    (h : (items.mapM fun i => pushConstraint (content i) (name i)).exec (m, s) =
      (.ok refs, (m', s'))) :
    s' = s ∧ refs = (List.range' m.constraints.size items.length).map (ConstraintRef.mk m.id) ∧
      m' = { m with constraints := m.constraints ++
        (items.map fun i => ⟨content i, m.keptName (name i)⟩).toArray } := by
  induction items generalizing m refs with
  | nil =>
    cases h
    exact ⟨rfl, rfl, by simp⟩
  | cons i items ih =>
    rw [List.mapM_cons] at h
    obtain ⟨r, ms, hfirst, h⟩ := BuildM.exec_bind_eq_ok_iff.mp h
    obtain ⟨rest, ms', hrest, h⟩ := BuildM.exec_bind_eq_ok_iff.mp h
    cases h
    rcases m.addConstraint_cases (content i) (name i) with ⟨v, -, -, herror⟩ | ⟨-, hok⟩
    · -- a constraint that is refused ends the whole
      rw [exec_pushConstraint_of_error herror] at hfirst
      cases hfirst
    · rw [exec_pushConstraint_of_ok hok] at hfirst
      cases hfirst
      obtain ⟨rfl, rfl, rfl⟩ := ih hrest
      refine ⟨rfl, ?_, ?_⟩
      · -- the model has one constraint more when the others are numbered
        rw [Array.size_push, List.length_cons, List.range'_succ]
        rfl
      · have hpush : m.constraints.push ⟨content i, m.keptName (name i)⟩ ++ (items.map fun i =>
            (⟨content i, m.keptName (name i)⟩ : Entry (Constraint α))).toArray =
          m.constraints ++
            ((i :: items).map fun i => ⟨content i, m.keptName (name i)⟩).toArray := by simp
        rw [← hpush]
        rfl

end Model

namespace Declaration

/-- A group whose constraints are all accepted is appended. -/
theorem of_exec_addGroup {name : Option Name} {g : ConstraintGroup α} {m m' : Model α} {s s' : σ}
    {refs : ConstraintRefs} (h : (addGroup name g).exec (m, s) = (.ok refs, (m', s'))) :
    s' = s ∧ refs = g.refs m.id m.constraints.size ∧
      m' = { m with constraints := m.constraints ++ (g.entries m name).toArray } := by
  cases g with
  | single c =>
    obtain ⟨r, ms, hpush, h⟩ := BuildM.exec_bind_eq_ok_iff.mp h
    cases h
    rcases m.addConstraint_cases c name with ⟨v, -, -, herror⟩ | ⟨-, hok⟩
    · rw [Model.exec_pushConstraint_of_error herror] at hpush
      cases hpush
    · rw [Model.exec_pushConstraint_of_ok hok] at hpush
      cases hpush
      refine ⟨rfl, rfl, ?_⟩
      cases name <;> simp [ConstraintGroup.entries, ConstraintGroup.toList, ConstraintGroup.nameAt]
  | broadcast cs =>
    obtain ⟨rs, ⟨m₁, s₁⟩, hpush, h⟩ := BuildM.exec_bind_eq_ok_iff.mp h
    cases h
    have hpush' : (cs.zipIdx.mapM fun p : Constraint α × Nat => Model.pushConstraint p.1
        (name.map fun n => n.subscript (toString (p.2 + 1)))).exec (m, s) = (.ok rs, (m', s')) :=
      hpush
    obtain ⟨rfl, rfl, rfl⟩ := Model.of_exec_pushConstraints _ _ hpush'
    rw [List.length_zipIdx]
    exact ⟨rfl, rfl, rfl⟩

variable [Coefficient α] [Zero α] [One α] [Neg α] [Add α] [Sub α] [Mul α] {d : Declaration}

/-- The constraints of one relation: its description, its group compiled, and the group added. -/
theorem exec_addConstraintsAt (d : Declaration) (registry : Registry α)
    (describe : Builder σ (Relation α)) (b : Bindings) (m : Model α) (s : σ) :
    (d.addConstraintsAt registry describe b).exec (m, s) =
      match (describe b).exec s with
      | (.error e, s') => (.error e, (m, s'))
      | (.ok relation, s') =>
        match (relation.canonicalize d.constraintLabel >>= registry.buildForm d.constraintLabel) with
        | .error e => (.error e, (m, s'))
        | .ok group => (addGroup (d.elementName b.key) group).exec (m, s') := by
  rw [addConstraintsAt, BuildM.exec_bind, BuildM.exec_onSecond]
  obtain ⟨r, s'⟩ := (describe b).exec s
  cases r with
  | error e => rfl
  | ok relation =>
    dsimp only
    rw [BuildM.exec_ofExcept_bind]
    cases relation.canonicalize d.constraintLabel with
    | error e => rfl
    | ok form =>
      have hgroup : (Except.ok form >>= registry.buildForm d.constraintLabel) =
          registry.buildForm d.constraintLabel form := rfl
      rw [hgroup]
      dsimp only
      rw [BuildM.exec_ofExcept_bind]
      cases registry.buildForm d.constraintLabel form <;> rfl

/-- The step of one relation: it is compiled, and its group is added. -/
def ConstraintStep (d : Declaration) (registry : Registry α) (b : Bindings) (relation : Relation α)
    (refs : ConstraintRefs) (m m' : Model α) : Prop :=
  ∃ form group, relation.canonicalize d.constraintLabel = .ok form ∧
    registry.buildForm d.constraintLabel form = .ok group ∧
    refs = group.refs m.id m.constraints.size ∧
    m' = { m with
      constraints := m.constraints ++ (group.entries m (d.elementName b.key)).toArray }

theorem isStep_addConstraintsAt (d : Declaration) (registry : Registry α)
    (describe : Builder σ (Relation α)) :
    IsStep (d.ConstraintStep registry) (d.addConstraintsAt registry describe.traced) := by
  intro b m calls s refs m' calls' s' hexec
  rw [exec_addConstraintsAt, Builder.exec_traced] at hexec
  cases hdescribe : ((describe b).exec s).1 with
  | error e =>
    rw [hdescribe] at hexec
    cases hexec
  | ok relation =>
    rw [hdescribe] at hexec
    dsimp only at hexec
    cases hgroup : relation.canonicalize d.constraintLabel >>=
        registry.buildForm d.constraintLabel with
    | error e =>
      rw [hgroup] at hexec
      cases hexec
    | ok group =>
      rw [hgroup] at hexec
      obtain ⟨form, hform, hbuild⟩ := Outcome.bind_eq_ok_iff.mp hgroup
      obtain ⟨hstate, hrefs, hmodel⟩ := of_exec_addGroup hexec
      cases hstate
      exact ⟨relation, rfl, form, group, hform, hbuild, hrefs, hmodel⟩

/-- Step by step the groups are appended, and their references count up. -/
theorem constraints_of_steps {registry : Registry α} {bs : List Bindings}
    {relations : List (Relation α)} {refs : List ConstraintRefs} {m m' : Model α}
    (h : Steps (d.ConstraintStep registry) bs relations refs m m') :
    ∃ groups, List.Forall₂ (fun relation group => ∃ form,
        relation.canonicalize d.constraintLabel = .ok form ∧
          registry.buildForm d.constraintLabel form = .ok group) relations groups ∧
      refs = ConstraintGroup.refsFrom m.id m.constraints.size groups ∧
      m' = { m with constraints := m.constraints ++ (List.zipWith
        (fun k g => ConstraintGroup.entries m (d.elementName k) g) (bs.map Bindings.key)
          groups).flatten.toArray } := by
  induction h with
  | nil m => exact ⟨[], .nil, rfl, by simp⟩
  | @cons b relation r m m₁ m' bs relations refs hstep _ ih =>
    obtain ⟨form, group, hform, hbuild, rfl, rfl⟩ := hstep
    obtain ⟨groups, hgroups, rfl, rfl⟩ := ih
    refine ⟨group :: groups, .cons ⟨form, hform, hbuild⟩ hgroups, ?_, ?_⟩
    · -- the references go on behind those of the first group
      rw [ConstraintGroup.refsFrom, ConstraintGroup.size_append_entries]
    · have happend : m.constraints ++ (group.entries m (d.elementName b.key)).toArray ++
          (List.zipWith (fun k g => ConstraintGroup.entries m (d.elementName k) g)
            (bs.map Bindings.key) groups).flatten.toArray =
        m.constraints ++ (List.zipWith (fun k g => ConstraintGroup.entries m (d.elementName k) g)
          ((b :: bs).map Bindings.key) (group :: groups)).flatten.toArray := by simp
      rw [← happend]
      rfl

end Declaration

/-- The object of a collection lists its references in the order of the container, unless there is
but one element and it has no broadcast. -/
theorem Container.constraintObject_of_ne {c : Container ConstraintRefs}
    (h : ∀ r, c ≠ .scalar (.single r)) : c.constraintObject =
      .constraints ((c.toList.map Prod.snd).flatMap ConstraintRefs.toList) := by
  rw [← values_eq]
  cases c with
  | scalar r =>
    cases r with
    | single r => exact absurd rfl (h r)
    | broadcast rs => rfl
  | dense a => rfl
  | axis a => rfl
  | map m => rfl

namespace Declaration

variable [Coefficient α] [Zero α] [One α] [Neg α] [Add α] [Sub α] [Mul α] {d : Declaration}

/-- What the declaration of constraints does to a model when it succeeds. Its description is called
once for each enumerated key, and what each relation is compiled into is appended, in the order of
the calls: the names are the name of the declaration with the key, numbered from one in a broadcast,
and the references are what the container holds at the key. Nothing else changes, except that the
name of the declaration, which was free, stands for all these references, each of them once, in the
order of the container. -/
theorem addConstraints_appends [Closeness] {registry : Registry α} {params : Params}
    {describe : Builder σ (Relation α)} {m m' : Model α} {s s' : σ} {c : Container ConstraintRefs}
    (hrun : (d.addConstraints registry params describe).exec (m, s) = (.ok c, (m', s'))) :
    ∃ (ks : List Key) (relations : List (Relation α)) (groups : List (ConstraintGroup α))
        (refs : List ConstraintRefs),
      d.enumerateKeys params = .ok ks ∧ ks.length = relations.length ∧
      Model.logged (d.addConstraints registry params describe.traced) m s =
        List.zipWith (fun k relation => ⟨d.bindingsAt params k, .ok relation⟩) ks relations ∧
      List.Forall₂ (fun relation group => ∃ form,
        relation.canonicalize d.constraintLabel = .ok form ∧
          registry.buildForm d.constraintLabel form = .ok group) relations groups ∧
      m'.constraints = m.constraints ++ (List.zipWith
        (fun k g => ConstraintGroup.entries m (d.elementName k) g) ks groups).flatten.toArray ∧
      c.Stores (ks.zip refs) ∧
      (∀ (i : Nat) (k : Key) (g : ConstraintGroup α), ks[i]? = some k → groups[i]? = some g →
        ∃ r, r = g.refs m.id
            (m.constraints.size + ((groups.take i).flatMap ConstraintGroup.toList).length) ∧
          refs[i]? = some r ∧ c.get? k = some r ∧
          r.toList.map (fun r => Model.constraintEntry? m' r) = g.toList.zipIdx.map fun (content, j) =>
            some ⟨content, if m.stringNames then d.name.map fun n =>
              g.nameAt (if d.indices = [] then n else n.subscript k.text) j else none⟩) ∧
      refs.flatMap ConstraintRefs.toList =
        (List.range' m.constraints.size (groups.flatMap ConstraintGroup.toList).length).map
          (ConstraintRef.mk m.id) ∧
      m'.id = m.id ∧ m'.stringNames = m.stringNames ∧ m'.vars = m.vars ∧
      ((∃ r, c = .scalar r) ↔ d.indices = []) ∧
      (∃ o, Model.Registers d.name o m m' ∧ (∀ r, c = .scalar (.single r) → o = .constraint r) ∧
        ((∀ r, c ≠ .scalar (.single r)) →
          o = .constraints ((c.toList.map Prod.snd).flatMap ConstraintRefs.toList))) ∧
      ((c.toList.map Prod.snd).flatMap ConstraintRefs.toList).Perm
        (refs.flatMap ConstraintRefs.toList) := by
  rw [addConstraints_eq] at hrun ⊢
  obtain ⟨ks, relations, refs, m₁, hkeys, hkeyed, hrelations, hrefs, hlog, hsteps, hscalar, hstores,
      hfree, rfl⟩ :=
    exists_steps_of_assemble (isStep_addConstraintsAt d registry describe)
      (d.projects_addConstraintsAt registry describe) hrun
  -- `m₁` has the constraints already, and only the name is missing
  obtain ⟨groups, hgroups, hrefsFrom, hm₁⟩ := constraints_of_steps hsteps
  rw [hkeyed] at hm₁
  have hid : m₁.id = m.id := by rw [hm₁]
  have hconstraints : m₁.constraints = m.constraints ++ (List.zipWith
      (fun k g => ConstraintGroup.entries m (d.elementName k) g) ks groups).flatten.toArray := by
    rw [hm₁]
  have hrest : m₁.stringNames = m.stringNames ∧ m₁.vars = m.vars := by
    rw [hm₁]
    exact ⟨rfl, rfl⟩
  have hnames : m₁.names = m.names := by rw [hm₁]
  refine ⟨ks, relations, groups, refs, hkeys, hrelations, hlog, hgroups, hconstraints, hstores, ?_, ?_,
    hid, hrest.1, hrest.2, hscalar, ⟨c.constraintObject, ?_, ?_, ?_⟩, ?_⟩
  · intro i k g hk hg
    have hr := ConstraintGroup.getElem?_refsFrom m.id m.constraints.size hg
    rw [← hrefsFrom] at hr
    refine ⟨_, rfl, hr, hstores.get?_of_getElem? hk hr (Key.compare_self k), ?_⟩
    rw [hrefsFrom, ← hid] at hr
    rw [← hid]
    refine (Model.map_constraintEntry?_refsFrom hconstraints hk hg hr).trans ?_
    rw [ConstraintGroup.entries, List.map_map]
    apply List.map_congr_left
    rintro ⟨content, j⟩ -
    exact congrArg (fun name => some (Entry.mk content name)) (m.keptName_nameAt d k g j)
  · rw [hrefsFrom, ConstraintGroup.flatMap_refsFrom]
  · exact Model.registers_named hnames hfree c.constraintObject
  · rintro r rfl
    rfl
  · exact Container.constraintObject_of_ne
  · have hperm := hstores.values_perm
    rw [List.map_snd_zip (by omega), Container.values_eq] at hperm
    exact hperm.flatMap_right _

/-- A map over `2, 1` whose relations are broadcasts of two elements. -/
theorem addConstraints_appends_map :
    let set : Expr := .collection [.const (.int 2), .const (.int 1)]
    let d : Declaration := ⟨some ⟨"c"⟩, [⟨⟨"i"⟩, set⟩], none, .map⟩
    let m : Model Float := ((Model.empty 7 true).addVariable ⟨none, none, none, false, false, none⟩
      none).2
    let relation : Relation Float :=
      .membership (.array [.var ⟨7, 0⟩, .var ⟨7, 0⟩]) (.scalar .integer) true
    let describe : Builder Unit (Relation Float) := fun _ => pure relation
    ∃ c m', (d.addConstraints .standard ⟨[]⟩ describe).exec (m, ()) = (.ok c, (m', ())) ∧
      m'.constraints.size = 4 ∧ m'.vars = m.vars ∧
      ∃ refs : List ConstraintRefs, c.Stores (List.zip [[.int 2], [.int 1]] refs) ∧
        ((c.toList.map Prod.snd).flatMap ConstraintRefs.toList).Perm
          (refs.flatMap ConstraintRefs.toList) ∧
        m'.lookup? ⟨"c"⟩ =
          some (.constraints ((c.toList.map Prod.snd).flatMap ConstraintRefs.toList)) := by
  intro set d m relation describe
  obtain ⟨c, m', hrun, hsize⟩ : ∃ c m', (d.addConstraints .standard ⟨[]⟩ describe).exec (m, ()) =
      (.ok c, (m', ())) ∧ m'.constraints.size = 4 := ⟨_, _, rfl, rfl⟩
  obtain ⟨ks, relations, groups, refs, hkeys, -, -, -, -, hstores, -, -, -, -, hvars, hscalar,
    ⟨o, hname, -, hobject⟩, hperm⟩ := addConstraints_appends hrun
  have hks : ks = [[.int 2], [.int 1]] := by
    have hkeys' : d.enumerateKeys ⟨[]⟩ = .ok [[.int 2], [.int 1]] := rfl
    rw [hkeys'] at hkeys
    exact (Except.ok.inj hkeys).symm
  subst hks
  refine ⟨c, m', hrun, hsize, hvars, refs, hstores, hperm, ?_⟩
  rw [hname.registered _ rfl, hobject]
  -- there is an index, so the container is not a single element
  intro r hr
  cases hscalar.mp ⟨_, hr⟩

end Declaration

end AlgebraicModel
