import AlgebraicModel.Proofs.Model.Collection

/-!
# What a collection of variables adds to a model

The building of one element asks the description for a declaration, resolves it and adds one
variable (`Declaration.isStep_addVariableAt`). Over all elements the variables are appended in the
order of the keys, so that the references count up from the number of variables that the model had
(`Declaration.appended_of_steps`). The container holds each reference under the key of its call, and
the name of the declaration stands for the references in the order of the container, which for a map
is another one (`Declaration.addVariables_appends`).
-/

set_option autoImplicit false

namespace AlgebraicModel

variable {α σ : Type}

/-- The object of a collection whose references count up from `n`. -/
theorem Container.variableObject_of_stores {c : Container VarRef} {ks : List Key} {id n : Nat}
    (h : c.Stores (ks.zip ((List.range' n ks.length).map (VarRef.mk id)))) :
    ((∃ v, c = .scalar v) → c.variableObject = .var ⟨id, n⟩) ∧
      ((¬ ∃ v, c = .scalar v) → c.variableObject = .vars (c.toList.map Prod.snd)) := by
  constructor
  · rintro ⟨v, rfl⟩
    -- the only element of the container is the only one that was stored
    have hperm := h.values_perm
    rw [List.map_snd_zip (by simp)] at hperm
    have hvs := List.singleton_perm.mp hperm
    have hone : ks.length = 1 := by simpa using (congrArg List.length hvs).symm
    rw [hone, List.range'_one, List.map_singleton] at hvs
    rw [variableObject, List.singleton_inj.mp hvs]
  · intro hnot
    rw [← values_eq]
    cases c with
    | scalar v => exact absurd ⟨v, rfl⟩ hnot
    | dense a => rfl
    | axis a => rfl
    | map m => rfl

namespace Model

/-- Appended variables are denoted by the references that count on from those before. -/
theorem variableEntry?_appended {m m' : Model α} {new : List (Entry (VariableInfo α))}
    (hid : m'.id = m.id) (hvars : m'.vars = m.vars ++ new.toArray) (i : Nat) :
    variableEntry? m' ⟨m.id, m.vars.size + i⟩ = new[i]? := by
  unfold variableEntry?
  rw [if_pos hid.symm, hvars, Array.getElem?_append_right (Nat.le_add_right _ _),
    Nat.add_sub_cancel_left, List.getElem?_toArray]

end Model

namespace Declaration

variable [Coefficient α] {d : Declaration}

/-- One variable: its description, its declaration resolved, and the model with the variable. -/
theorem exec_addVariableAt (d : Declaration) (describe : Builder σ (VariableDecl α)) (b : Bindings)
    (m : Model α) (s : σ) :
    (d.addVariableAt describe b).exec (m, s) =
      match (describe b).exec s with
      | (.error e, s') => (.error e, (m, s'))
      | (.ok decl, s') =>
        match decl.resolve d.variableLabel with
        | .error e => (.error e, (m, s'))
        | .ok info =>
          (.ok ⟨m.id, m.vars.size⟩, ((m.addVariable info (d.elementName b.key)).2, s')) := by
  rw [addVariableAt, BuildM.exec_bind, BuildM.exec_onSecond]
  obtain ⟨r, s'⟩ := (describe b).exec s
  cases r with
  | error e => rfl
  | ok decl =>
    dsimp only
    rw [BuildM.exec_ofExcept_bind]
    cases decl.resolve d.variableLabel <;> rfl

/-- The step of one variable: the declaration is resolved and the variable is added. -/
def VariableStep (d : Declaration) (b : Bindings) (decl : VariableDecl α) (v : VarRef)
    (m m' : Model α) : Prop :=
  ∃ info, decl.resolve d.variableLabel = .ok info ∧ v = ⟨m.id, m.vars.size⟩ ∧
    m' = (m.addVariable info (d.elementName b.key)).2

theorem isStep_addVariableAt (d : Declaration) (describe : Builder σ (VariableDecl α)) :
    IsStep d.VariableStep (d.addVariableAt describe.traced) := by
  intro b m calls s v m' calls' s' hexec
  rw [exec_addVariableAt, Builder.exec_traced] at hexec
  cases hdescribe : ((describe b).exec s).1 with
  | error e =>
    rw [hdescribe] at hexec
    cases hexec
  | ok decl =>
    rw [hdescribe] at hexec
    dsimp only at hexec
    cases hinfo : decl.resolve d.variableLabel with
    | error e =>
      rw [hinfo] at hexec
      cases hexec
    | ok info =>
      rw [hinfo] at hexec
      cases hexec
      exact ⟨decl, rfl, info, hinfo, rfl, rfl⟩

/-- Step by step the variables are appended, and their references count up. -/
theorem appended_of_steps {bs : List Bindings} {decls : List (VariableDecl α)} {vs : List VarRef}
    {m m' : Model α} (h : Steps d.VariableStep bs decls vs m m') :
    ∃ infos, List.Forall₂ (fun decl info => decl.resolve d.variableLabel = .ok info) decls infos ∧
      vs = (List.range' m.vars.size bs.length).map (VarRef.mk m.id) ∧
      m' = { m with vars := m.vars ++ (List.zipWith
        (fun k info => ⟨info, m.keptName (d.elementName k)⟩) (bs.map Bindings.key) infos).toArray } := by
  induction h with
  | nil m => exact ⟨[], .nil, rfl, by simp⟩
  | @cons b decl v m m₁ m' bs decls vs hstep _ ih =>
    obtain ⟨info, hinfo, rfl, rfl⟩ := hstep
    obtain ⟨infos, hinfos, rfl, rfl⟩ := ih
    refine ⟨info :: infos, .cons hinfo hinfos, ?_, ?_⟩
    · -- the model has one variable more when the others are numbered
      rw [Model.vars_addVariable, Array.size_push, List.length_cons, List.range'_succ]
      rfl
    · have hpush : m.vars.push ⟨info, m.keptName (d.elementName b.key)⟩ ++ (List.zipWith
          (fun k info => (⟨info, m.keptName (d.elementName k)⟩ : Entry (VariableInfo α)))
          (bs.map Bindings.key) infos).toArray =
        m.vars ++ (List.zipWith (fun k info => ⟨info, m.keptName (d.elementName k)⟩)
          ((b :: bs).map Bindings.key) (info :: infos)).toArray := by simp
      rw [← hpush]
      rfl

/-- What the declaration of variables does to a model when it succeeds. Its description is called
once for each enumerated key, and each call gives one variable, appended in the order of the calls:
its information is the resolved declaration, its name the name of the declaration with the key, and
its reference is what the container holds at the key. Nothing else changes, except that the name of
the declaration, which was free, stands for the references in the order of the container. -/
theorem addVariables_appends [Closeness] {params : Params} {describe : Builder σ (VariableDecl α)}
    {m m' : Model α} {s s' : σ} {c : Container VarRef}
    (hrun : (d.addVariables params describe).exec (m, s) = (.ok c, (m', s'))) :
    ∃ ks decls infos, d.enumerateKeys params = .ok ks ∧ ks.length = decls.length ∧
      Model.logged (d.addVariables params describe.traced) m s =
        List.zipWith (fun k decl => ⟨d.bindingsAt params k, .ok decl⟩) ks decls ∧
      List.Forall₂ (fun decl info => decl.resolve d.variableLabel = .ok info) decls infos ∧
      m'.vars = m.vars ++ (List.zipWith (fun k info => ⟨info, m.keptName (d.elementName k)⟩)
        ks infos).toArray ∧
      c.Stores (ks.zip ((List.range' m.vars.size ks.length).map (VarRef.mk m.id))) ∧
      (∀ i k info, ks[i]? = some k → infos[i]? = some info →
        c.get? k = some ⟨m.id, m.vars.size + i⟩ ∧
        Model.variableEntry? m' ⟨m.id, m.vars.size + i⟩ = some ⟨info, if m.stringNames then
          d.name.map fun n => if d.indices = [] then n else n.subscript k.text else none⟩) ∧
      m'.id = m.id ∧ m'.stringNames = m.stringNames ∧ m'.constraints = m.constraints ∧
      Model.Registers d.name (if d.indices = [] then .var ⟨m.id, m.vars.size⟩
        else .vars (c.toList.map Prod.snd)) m m' := by
  rw [addVariables_eq] at hrun ⊢
  obtain ⟨ks, decls, vs, m₁, hkeys, hkeyed, hdecls, -, hlog, hsteps, hscalar, hstores, hfree, rfl⟩ :=
    exists_steps_of_assemble (isStep_addVariableAt d describe) (d.projects_addVariableAt describe)
      hrun
  -- `m₁` has the variables already, and only the name is missing
  obtain ⟨infos, hinfos, rfl, hm₁⟩ := appended_of_steps hsteps
  rw [hkeyed] at hm₁
  rw [List.length_map] at hstores
  have hid : m₁.id = m.id := by rw [hm₁]
  have hvars : m₁.vars = m.vars ++ (List.zipWith
      (fun k info => ⟨info, m.keptName (d.elementName k)⟩) ks infos).toArray := by rw [hm₁]
  have hrest : m₁.stringNames = m.stringNames ∧ m₁.constraints = m.constraints := by
    rw [hm₁]
    exact ⟨rfl, rfl⟩
  have hnames : m₁.names = m.names := by rw [hm₁]
  have hobject : c.variableObject = if d.indices = [] then .var ⟨m.id, m.vars.size⟩
      else .vars (c.toList.map Prod.snd) := by
    obtain ⟨hone, hmany⟩ := Container.variableObject_of_stores hstores
    rw [hscalar] at hone hmany
    by_cases hindices : d.indices = []
    · rw [if_pos hindices, hone hindices]
    · rw [if_neg hindices, hmany hindices]
  refine ⟨ks, decls, infos, hkeys, hdecls, hlog, hinfos, hvars, hstores, ?_, hid, hrest.1, hrest.2,
    ?_⟩
  · intro i k info hk hinfo
    have hi : i < ks.length := (List.getElem?_eq_some_iff.mp hk).1
    have href : ((List.range' m.vars.size ks.length).map (VarRef.mk m.id))[i]? =
        some ⟨m.id, m.vars.size + i⟩ := by
      rw [List.getElem?_map, List.getElem?_range' hi, Nat.one_mul, Option.map_some]
    refine ⟨hstores.get?_of_getElem? hk href (Key.compare_self k), ?_⟩
    refine (Model.variableEntry?_appended hid hvars i).trans ?_
    rw [List.getElem?_zipWith, hk, hinfo, ← m.keptName_elementName d k]
  · rw [← hobject]
    exact Model.registers_named hnames hfree c.variableObject

/-- A map over `2, 1`, which has its references in the order of the keys. -/
theorem addVariables_appends_map :
    let set : Expr := .collection [.const (.int 2), .const (.int 1)]
    let d : Declaration := ⟨some ⟨"x"⟩, [⟨⟨"i"⟩, set⟩], none, .map⟩
    let describe : Builder Unit (VariableDecl Float) := fun _ => pure .free
    ∃ c m', (d.addVariables ⟨[]⟩ describe).exec (.empty 7 true, ()) = (.ok c, (m', ())) ∧
      c.get? [.int 2] = some ⟨7, 0⟩ ∧ c.get? [.int 1] = some ⟨7, 1⟩ ∧
      m'.lookup? ⟨"x"⟩ = some (.vars (c.toList.map Prod.snd)) := by
  intro set d describe
  obtain ⟨c, m', hrun⟩ : ∃ c m', (d.addVariables ⟨[]⟩ describe).exec (.empty 7 true, ()) =
      (.ok c, (m', ())) := ⟨_, _, rfl⟩
  obtain ⟨ks, decls, infos, hkeys, hdecls, -, hinfos, -, -, hget, -, -, -, hname⟩ :=
    addVariables_appends hrun
  have hks : ks = [[.int 2], [.int 1]] := by
    have hkeys' : d.enumerateKeys ⟨[]⟩ = .ok [[.int 2], [.int 1]] := rfl
    rw [hkeys'] at hkeys
    exact (Except.ok.inj hkeys).symm
  subst hks
  obtain ⟨info, info', rfl⟩ := List.length_eq_two.mp (hinfos.length_eq.symm.trans hdecls.symm)
  exact ⟨c, m', hrun, (hget 0 _ _ rfl rfl).1, (hget 1 _ _ rfl rfl).1, hname.registered _ rfl⟩

end Declaration

end AlgebraicModel
