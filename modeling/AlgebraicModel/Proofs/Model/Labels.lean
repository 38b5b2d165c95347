import AlgebraicModel.Proofs.Constraint.Origins
import AlgebraicModel.Proofs.Model.Failures
import AlgebraicModel.Proofs.Population.Origins

/-!
# Every failure carries its label once

An assembly can fail at its plan, over its keys, over an element, over the constraint of a symmetric
matrix and over its name. For each of these there is an inductive type that lists the failures with
the errors that they are before a label is put on them, and with the evidence that this is what went
wrong: `VariableFailure` and `ConstraintFailure` for the call of an element, `AssemblyFailure` and
`MatrixFailure` for the whole. What the caller's description or builder has worded is marked as the
caller's.

The labels are attached in many places, some twice on the way of one error. The element lemmas say
that attaching the label to what an element ends with is attaching it to the failure it comes from
(`Builder.FailsFor`), and from there an error keeps to its way: each call returns the failure under
the label of the declaration, once (`Declaration.failure_carries_label`).
-/

set_option autoImplicit false

namespace AlgebraicModel

open BuildM (Projects)

variable {α σ τ β γ : Type}

/-! ## Messages -/

instance : Cause.Plain VariableError where
  beginsPlain c := by
    change Label.BeginsPlain c.message
    unfold VariableError.message
    cases c
    all_goals
      repeat' with_reducible apply Label.BeginsPlain.append
      exact Label.beginsPlain_ofList _ (by decide)

instance : Cause.Plain ModelError where
  beginsPlain c := by
    change Label.BeginsPlain c.message
    unfold ModelError.message
    cases c
    all_goals
      repeat' with_reducible apply Label.BeginsPlain.append
      exact Label.beginsPlain_ofList _ (by decide)

/-! ## Elements -/

/-- Where the building of an element fails, `failure` lists the failure that it comes from, and
under the label the two are one error. -/
def Builder.FailsFor (l : Label) (build : Builder τ γ) (failure : τ → Author → Error → Prop) :
    Prop :=
  ∀ b t e t', (build b).exec t = (.error e, t') →
    ∃ author o, failure t' author o ∧ l.attach e = l.attach o

theorem Plan.failure_of_populate [Closeness] {p : Plan} {l : Label} {params : Params}
    {build : Builder τ γ} {failure : τ → Author → Error → Prop}
    (hbuild : Builder.FailsFor l build failure) {t t' : τ} {e : Error}
    (h : (p.populate l params build).exec t = (.error e, t')) :
    (∃ o, p.KeyFailure params o ∧ e = l.attach o) ∨
      ∃ author o, failure t' author o ∧ e = l.attach o := by
  rcases error_cases_of_populate h with hkeys | ⟨b, t₁, e', hexec, rfl⟩
  · exact .inl hkeys
  · exact .inr (hbuild b t₁ e' t' hexec)

theorem Declaration.failure_of_populateSymmetric [Closeness] {d : Declaration} {l : Label}
    {params : Params} {build : Builder τ γ} {failure : τ → Author → Error → Prop}
    (hbuild : Builder.FailsFor l build failure) {t t' : τ} {e : Error}
    (h : (d.populateSymmetric l params build).exec t = (.error e, t')) :
    (∃ o, d.SymmetricFailure params o ∧ e = l.attach o) ∨
      ∃ author o, failure t' author o ∧ e = l.attach o := by
  rcases error_cases_of_populateSymmetric h with hshape | ⟨b, t₁, e', hexec, rfl⟩
  · exact .inl hshape
  · exact .inr (hbuild b t₁ e' t' hexec)

/-- Why a variable is not added, where `calls` are the calls of the description up to then. -/
inductive VariableFailure [Coefficient α] (calls : List (Call (VariableDecl α))) :
    Author → Error → Prop
  /-- The description of the last call fails. -/
  | description {b : Bindings} {o : Error} (h : calls.getLast? = some ⟨b, .error o⟩) :
      VariableFailure calls .caller o
  /-- What the last call has described contradicts itself. -/
  | bounds {b : Bindings} {decl : VariableDecl α} {e : VariableError}
      (h : calls.getLast? = some ⟨b, .ok decl⟩) (hinfo : decl.info = .error e) :
      VariableFailure calls .compiler (.ofCause e)

theorem VariableFailure.not_isLabelled [Coefficient α] {calls : List (Call (VariableDecl α))}
    {o : Error} (h : VariableFailure calls .compiler o) : ¬ o.IsLabelled := by
  cases h with
  | bounds => exact Label.not_isLabelled_ofCause _

section Constraints

variable [Coefficient α] [Zero α] [One α] [Neg α] [Add α] [Sub α] [Mul α]

/-- Why the constraints of a relation are not added, where `calls` are the calls of the description
up to then and `m` is the model at hand. -/
inductive ConstraintFailure (registry : Registry α) (l : Label)
    (calls : List (Call (Relation α))) (m : Model α) : Author → Error → Prop
  /-- The description of the last call fails. -/
  | description {b : Bindings} {o : Error} (h : calls.getLast? = some ⟨b, .error o⟩) :
      ConstraintFailure registry l calls m .caller o
  /-- The relation of the last call has no canonical form. -/
  | relation {b : Bindings} {relation : Relation α} {e : RelationError}
      (h : calls.getLast? = some ⟨b, .ok relation⟩) (hform : relation.canonicalForm = .error e) :
      ConstraintFailure registry l calls m .compiler (.ofCause e)
  /-- The registry does not build the canonical form. -/
  | building {b : Bindings} {relation : Relation α} {form : CanonicalForm α} {author : Author}
      {o : Error} (h : calls.getLast? = some ⟨b, .ok relation⟩)
      (hform : relation.canonicalForm = .ok form) (ho : registry.FormFailure l form author o) :
      ConstraintFailure registry l calls m author o
  /-- The model refuses one of the constraints for a variable that it does not have. -/
  | refusal {b : Bindings} {relation : Relation α} {form : CanonicalForm α}
      {group : ConstraintGroup α} {c : Constraint α} {v : VarRef}
      (h : calls.getLast? = some ⟨b, .ok relation⟩) (hform : relation.canonicalForm = .ok form)
      (hgroup : registry.buildForm l form = .ok group) (hc : c ∈ group.toList)
      (hv : v ∈ c.func.vars) (hforeign : ¬ m.DenotesVariable v) :
      ConstraintFailure registry l calls m .compiler
        (.ofCause (ModelError.foreignVariable v.index))

theorem ConstraintFailure.not_isLabelled {registry : Registry α} {l : Label}
    {calls : List (Call (Relation α))} {m : Model α} {o : Error}
    (h : ConstraintFailure registry l calls m .compiler o) : ¬ o.IsLabelled := by
  cases h with
  | relation => exact Label.not_isLabelled_ofCause _
  | building _ _ ho => exact ho.not_isLabelled
  | refusal => exact Label.not_isLabelled_ofCause _

end Constraints

/-! ## What the model refuses -/

/-- Among constraints that are added one after the other, the one that is refused refers to a
variable that the model does not have. -/
theorem Model.error_of_pushConstraints {ι : Type} (content : ι → Constraint α)
    (name : ι → Option Name) {items : List ι} {m m' : Model α} {s s' : σ} {e : Error}
    (h : (items.mapM fun i => pushConstraint (content i) (name i)).exec (m, s) =
      (.error e, (m', s'))) :
    s' = s ∧ ∃ i ∈ items, ∃ v ∈ (content i).func.vars, ¬ m'.DenotesVariable v ∧
      e = .ofCause (ModelError.foreignVariable v.index) := by
  induction items generalizing m with
  | nil => cases h
  | cons i items ih =>
    rw [List.mapM_cons] at h
    rcases m.addConstraint_cases (content i) (name i) with ⟨v, hv, hforeign, herror⟩ | ⟨-, hok⟩
    · rw [BuildM.exec_bind, exec_pushConstraint_of_error herror] at h
      cases h
      exact ⟨rfl, i, List.mem_cons_self, v, hv, hforeign, rfl⟩
    · rw [BuildM.exec_bind, exec_pushConstraint_of_ok hok] at h
      rcases BuildM.exec_bind_eq_error_iff.mp h with h | ⟨refs, ms, -, h⟩
      · obtain ⟨hstate, i', hi', hrefused⟩ := ih h
        exact ⟨hstate, i', List.mem_cons_of_mem i hi', hrefused⟩
      · cases h

theorem Declaration.error_of_addGroup {name : Option Name} {g : ConstraintGroup α}
    {m m' : Model α} {s s' : σ} {e : Error}
    (h : (addGroup name g).exec (m, s) = (.error e, (m', s'))) :
    s' = s ∧ ∃ c ∈ g.toList, ∃ v ∈ c.func.vars, ¬ m'.DenotesVariable v ∧
      e = .ofCause (ModelError.foreignVariable v.index) := by
  cases g with
  | single c =>
    rcases m.addConstraint_cases c name with ⟨v, hv, hforeign, herror⟩ | ⟨-, hok⟩
    · rw [addGroup, BuildM.exec_bind, Model.exec_pushConstraint_of_error herror] at h
      cases h
      exact ⟨rfl, c, List.mem_singleton_self c, v, hv, hforeign, rfl⟩
    · rw [addGroup, BuildM.exec_bind, Model.exec_pushConstraint_of_ok hok] at h
      cases h
  | broadcast cs =>
    rcases BuildM.exec_bind_eq_error_iff.mp h with h | ⟨refs, ms, -, h⟩
    · have hpush : (cs.zipIdx.mapM fun p : Constraint α × Nat => Model.pushConstraint p.1
          (name.map fun n => n.subscript (toString (p.2 + 1)))).exec (m, s) =
            (.error e, (m', s')) := h
      obtain ⟨hstate, ⟨c, i⟩, hmem, hrefused⟩ := Model.error_of_pushConstraints _ _ hpush
      exact ⟨hstate, c, List.fst_mem_of_mem_zipIdx hmem, hrefused⟩
    · cases h

/-! ## Calls for an element -/

namespace Declaration

variable [Coefficient α]

theorem failsFor_addVariableAt (d : Declaration) (describe : Builder σ (VariableDecl α)) :
    Builder.FailsFor d.variableLabel (d.addVariableAt describe.traced)
      fun (t : Model α × List (Call (VariableDecl α)) × σ) => VariableFailure t.2.1 := by
  rintro b ⟨m, calls, s⟩ e t' h
  rw [exec_addVariableAt, Builder.exec_traced] at h
  obtain ⟨⟨r, s'⟩, hdescribe⟩ : ∃ out, (describe b).exec s = out := ⟨_, rfl⟩
  rw [hdescribe] at h
  cases r with
  | error o =>
    cases h
    exact ⟨_, _, .description List.getLast?_concat, rfl⟩
  | ok decl =>
    dsimp only at h
    cases hresolve : decl.resolve d.variableLabel with
    | ok info =>
      rw [hresolve] at h
      cases h
    | error e' =>
      rw [hresolve] at h
      cases h
      obtain ⟨c, hinfo, rfl⟩ := Outcome.mapError_eq_error_iff.mp hresolve
      refine ⟨_, _, .bounds List.getLast?_concat hinfo, ?_⟩
      rw [Label.report_eq_attach, Label.attach_attach]

variable [Zero α] [One α] [Neg α] [Add α] [Sub α] [Mul α]

theorem failsFor_addConstraintsAt (d : Declaration) (registry : Registry α)
    (describe : Builder σ (Relation α)) :
    Builder.FailsFor d.constraintLabel (d.addConstraintsAt registry describe.traced)
      fun (t : Model α × List (Call (Relation α)) × σ) =>
        ConstraintFailure registry d.constraintLabel t.2.1 t.1 := by
  rintro b ⟨m, calls, s⟩ e ⟨m', calls', s'⟩ h
  rw [exec_addConstraintsAt, Builder.exec_traced] at h
  obtain ⟨⟨r, s₁⟩, hdescribe⟩ : ∃ out, (describe b).exec s = out := ⟨_, rfl⟩
  rw [hdescribe] at h
  cases r with
  | error o =>
    cases h
    exact ⟨_, _, .description List.getLast?_concat, rfl⟩
  | ok relation =>
    dsimp only at h
    cases hgroup : relation.canonicalize d.constraintLabel >>=
        registry.buildForm d.constraintLabel with
    | error e' =>
      rw [hgroup] at h
      cases h
      rcases Outcome.bind_eq_error_iff.mp hgroup with hform | ⟨form, hform, hbuild⟩
      · obtain ⟨c, hc, rfl⟩ := Outcome.mapError_eq_error_iff.mp hform
        refine ⟨_, _, .relation List.getLast?_concat hc, ?_⟩
        rw [Label.report_eq_attach, Label.attach_attach]
      · obtain ⟨author, o, ho, rfl⟩ := Registry.exists_formFailure form hbuild
        have hcanonical := Outcome.mapError_eq_ok_iff.mp hform
        exact ⟨author, o, .building List.getLast?_concat hcanonical ho, Label.attach_attach _ _ _⟩
    | ok group =>
      -- the group is there, and the model refuses one of its constraints
      rw [hgroup] at h
      obtain ⟨form, hform, hbuild⟩ := Outcome.bind_eq_ok_iff.mp hgroup
      obtain ⟨hstate, c, hc, v, hv, hforeign, rfl⟩ := error_of_addGroup h
      cases hstate
      have hcanonical := Outcome.mapError_eq_ok_iff.mp hform
      exact ⟨_, _, .refusal List.getLast?_concat hcanonical hbuild hc hv hforeign, rfl⟩

end Declaration

/-! ## Assemblies -/

namespace Declaration

section

variable [Closeness]

/-- Why a collection is not assembled, who says so, and the error that it is. `element` lists the
failures of an element, and `m` is the model that is left. -/
inductive AssemblyFailure (d : Declaration) (params : Params) (element : Author → Error → Prop)
    (m : Model α) : Author → Error → Prop
  | plan {e : PlanError} (h : d.representation = .error e) :
      AssemblyFailure d params element m .compiler (.ofCause e)
  | keys {r : Representation} {o : Error} (hplan : d.representation = .ok r)
      (h : Plan.KeyFailure ⟨d, r⟩ params o) : AssemblyFailure d params element m .compiler o
  | element {author : Author} {o : Error} (h : element author o) :
      AssemblyFailure d params element m author o
  /-- The name of the collection is taken. -/
  | name {n : Name} {object : NamedObject} (hn : d.name = some n)
      (htaken : m.lookup? n = some object) :
      AssemblyFailure d params element m .compiler (.ofCause (ModelError.duplicateName n))

theorem AssemblyFailure.not_isLabelled {d : Declaration} {params : Params}
    {element : Author → Error → Prop} {m : Model α} {o : Error}
    (h : d.AssemblyFailure params element m .compiler o)
    (helement : element .compiler o → ¬ o.IsLabelled) : ¬ o.IsLabelled := by
  cases h with
  | plan => exact Label.not_isLabelled_ofCause _
  | keys _ h => exact h.not_isLabelled
  | element h => exact helement h
  | name => exact Label.not_isLabelled_ofCause _

/-- Why a symmetric matrix is not added, who says so, and the error that it is. `calls` are the
calls of the description, `built` holds of the matrix that was built, and `m` is the model that is
left. -/
inductive MatrixFailure [Coefficient α] [Zero α] [One α] [Add α] [Sub α] (d : Declaration)
    (registry : Registry α) (params : Params) (psd : Bool) (calls : List (Call (VariableDecl α)))
    (built : Container (Shared VarRef) → Prop) (m : Model α) : Author → Error → Prop
  | shape {o : Error} (h : d.SymmetricFailure params o) :
      MatrixFailure d registry params psd calls built m .compiler o
  | element {author : Author} {o : Error} (h : VariableFailure calls author o) :
      MatrixFailure d registry params psd calls built m author o
  /-- The constraint of the matrix is not built. -/
  | psdBuilding {matrix : Container (Shared VarRef)} {author : Author} {o : Error}
      (hpsd : psd = true) (hmatrix : built matrix)
      (h : registry.BuildFailure d.variableLabel (psdFunction matrix)
        (.vector (.psdTriangle matrix.side)) author o) :
      MatrixFailure d registry params psd calls built m author o
  /-- The model refuses the constraint of the matrix for a variable that it does not have. -/
  | psdRefusal {matrix : Container (Shared VarRef)} {c : Constraint α} {v : VarRef}
      (hpsd : psd = true) (hmatrix : built matrix)
      (hbuild : registry.build d.variableLabel (psdFunction matrix)
        (.vector (.psdTriangle matrix.side)) = .ok c)
      (hv : v ∈ c.func.vars) (hforeign : ¬ m.DenotesVariable v) :
      MatrixFailure d registry params psd calls built m .compiler
        (.ofCause (ModelError.foreignVariable v.index))
  /-- The name of the matrix is taken. -/
  | name {n : Name} {object : NamedObject} (hn : d.name = some n)
      (htaken : m.lookup? n = some object) :
      MatrixFailure d registry params psd calls built m .compiler
        (.ofCause (ModelError.duplicateName n))

theorem MatrixFailure.not_isLabelled [Coefficient α] [Zero α] [One α] [Add α] [Sub α]
    {d : Declaration} {registry : Registry α} {params : Params} {psd : Bool}
    {calls : List (Call (VariableDecl α))} {built : Container (Shared VarRef) → Prop} {m : Model α}
    {o : Error} (h : d.MatrixFailure registry params psd calls built m .compiler o) :
    ¬ o.IsLabelled := by
  cases h with
  | shape h => exact h.not_isLabelled
  | element h => exact h.not_isLabelled
  | psdBuilding _ _ h => exact h.not_isLabelled
  | psdRefusal => exact Label.not_isLabelled_ofCause _
  | name => exact Label.not_isLabelled_ofCause _

end

variable {d : Declaration} {l : Label} {params : Params} {m m' : Model α} {s s' : σ} {e : Error}

theorem plan_eq_error_iff :
    d.plan l = .error e ↔ ∃ c, d.representation = .error c ∧ l.report c = e := by
  rw [plan, Outcome.mapError_eq_error_iff]
  simp only [Outcome.map_eq_error_iff]

/-- An assembly that fails returns the failure under the label. -/
theorem failure_of_assemble [Closeness] {build : Builder (Model α × σ) γ}
    {traced : Builder (Model α × List (Call β) × σ) γ} {object : Container γ → NamedObject}
    {element : Model α × List (Call β) × σ → Author → Error → Prop}
    (hprojects : ∀ b, Projects withoutLog (traced b) (build b))
    (hfails : Builder.FailsFor l traced element)
    (hrun : (d.assemble l params build object).exec (m, s) = (.error e, (m', s'))) :
    ∃ author o, d.AssemblyFailure params
        (element (m', (Model.logged (d.assemble l params traced object) m s, s'))) m' author o ∧
      e = l.attach o := by
  have htraced := Model.exec_of_projects (d.projects_assemble hprojects l params object) m s
  rw [hrun] at htraced
  -- the traced assembly fails in the same way, and its log holds the calls
  rcases error_cases_of_assemble htraced with
    ⟨hplan, -⟩ | ⟨p, hplan, h | ⟨c, n, taken, -, hn, htaken, rfl⟩⟩
  · obtain ⟨c, hc, rfl⟩ := plan_eq_error_iff.mp hplan
    exact ⟨_, _, .plan hc, l.report_eq_attach c⟩
  · rcases Plan.failure_of_populate hfails h with ⟨o, ho, rfl⟩ | ⟨author, o, ho, rfl⟩
    · obtain ⟨rfl, hrep⟩ := plan_eq_ok_iff.mp hplan
      exact ⟨_, o, .keys hrep ho, rfl⟩
    · exact ⟨author, o, .element ho, rfl⟩
  · exact ⟨_, _, .name hn htaken, l.report_eq_attach _⟩

variable [Coefficient α]

theorem projects_addPsd (d : Declaration) (registry : Registry α) (psd : Bool)
    (matrix : Container (Shared VarRef)) :
    Projects (withoutLog (α := α) (β := β) (σ := σ)) (d.addPsd registry psd matrix)
      (d.addPsd registry psd matrix) := by
  cases psd with
  | false => exact BuildM.projects_pure _ none
  | true =>
    rw [addPsd, if_pos rfl, map_eq_pure_bind, addPsd, if_pos rfl, map_eq_pure_bind]
    refine Projects.bind ((BuildM.projects_ofExcept _ _).bind ?_) ?_
    · intro c
      exact (Model.projects_pushConstraint c none).labelled d.variableLabel
    · intro r
      exact BuildM.projects_pure _ _

theorem projects_addSymmetricVariables [Closeness] (d : Declaration) (registry : Registry α)
    (params : Params) (psd : Bool) (describe : Builder σ (VariableDecl α)) :
    Projects withoutLog (d.addSymmetricVariables registry params psd describe.traced)
      (d.addSymmetricVariables registry params psd describe) := by
  rw [addSymmetricVariables_eq, addSymmetricVariables_eq]
  refine (d.projects_populateSymmetric (d.projects_addVariableAt describe) _ params).bind ?_
  intro matrix
  refine (d.projects_addPsd registry psd matrix).bind ?_
  intro r
  refine (Model.projects_pushName d.variableLabel d.name _).bind ?_
  intro _
  exact BuildM.projects_pure _ _

variable [Zero α] [One α] [Add α] [Sub α]

/-- A symmetric matrix that fails returns the failure under the label. -/
theorem failure_of_addSymmetricVariables [Closeness] {registry : Registry α} {psd : Bool}
    {describe : Builder σ (VariableDecl α)}
    (hrun : (d.addSymmetricVariables registry params psd describe).exec (m, s) =
      (.error e, (m', s'))) :
    ∃ author o, d.MatrixFailure registry params psd
        (Model.logged (d.addSymmetricVariables registry params psd describe.traced) m s)
        (fun matrix => ∃ s₁, (d.populateSymmetric d.variableLabel params
          (d.addVariableAt describe)).exec (m, s) = (.ok matrix, (m', s₁))) m' author o ∧
      e = d.variableLabel.attach o := by
  have htraced := Model.exec_of_projects
    (d.projects_addSymmetricVariables registry params psd describe) m s
  rw [hrun] at htraced
  rcases error_cases_of_addSymmetricVariables htraced with
    h | ⟨matrix, m₁, ⟨calls, s₁⟩, hmatrix, h | ⟨n, taken, hn, htaken, rfl⟩⟩
  · rcases failure_of_populateSymmetric (d.failsFor_addVariableAt describe) h with
      ⟨o, ho, rfl⟩ | ⟨author, o, ho, rfl⟩
    · exact ⟨_, o, .shape ho, rfl⟩
    · exact ⟨author, o, .element ho, rfl⟩
  · obtain ⟨hpsd, rfl, h⟩ := error_cases_of_addPsd h
    -- without its log, the population is that of the description itself
    have hbuilt := d.projects_populateSymmetric (d.projects_addVariableAt describe)
      d.variableLabel params (m, ([], s))
    rw [hmatrix] at hbuilt
    rcases h with hbuild | ⟨c, hbuild, v, hv, hforeign, rfl⟩
    · obtain ⟨author, o, ho, rfl⟩ := Registry.exists_buildFailure hbuild
      exact ⟨author, o, .psdBuilding hpsd ⟨s₁, hbuilt⟩ ho, rfl⟩
    · exact ⟨_, _, .psdRefusal hpsd ⟨s₁, hbuilt⟩ hbuild hv hforeign, rfl⟩
  · exact ⟨_, _, .name hn htaken, Label.report_eq_attach _ _⟩

/-! ## Every call -/

variable [Neg α] [Mul α]

/-- Every failure carries its label once. Each of the three calls, when it fails, returns one of the
failures that are listed for it, under the label of the declaration: the error has the kind and the
code of the failure, and details that begin with the label, which was not there before. Only where
the caller's description or a builder of the caller's own has worded details that begin with a label
already is the error returned as it was. -/
theorem failure_carries_label [Closeness] (d : Declaration) (registry : Registry α)
    (params : Params) (psd : Bool) (describe : Builder σ (VariableDecl α))
    (relate : Builder σ (Relation α)) (m : Model α) (s : σ) :
    (∀ e m' s', (d.addVariables params describe).exec (m, s) = (.error e, (m', s')) →
      ∃ author o, d.AssemblyFailure params
          (VariableFailure (Model.logged (d.addVariables params describe.traced) m s)) m' author o ∧
        d.variableLabel.Reports author o e) ∧
    (∀ e m' s', (d.addConstraints registry params relate).exec (m, s) = (.error e, (m', s')) →
      ∃ author o, d.AssemblyFailure params (ConstraintFailure registry d.constraintLabel
          (Model.logged (d.addConstraints registry params relate.traced) m s) m') m' author o ∧
        d.constraintLabel.Reports author o e) ∧
    ∀ e m' s',
      (d.addSymmetricVariables registry params psd describe).exec (m, s) = (.error e, (m', s')) →
      ∃ author o, d.MatrixFailure registry params psd
          (Model.logged (d.addSymmetricVariables registry params psd describe.traced) m s)
          (fun matrix => ∃ s₁, (d.populateSymmetric d.variableLabel params
            (d.addVariableAt describe)).exec (m, s) = (.ok matrix, (m', s₁))) m' author o ∧
        d.variableLabel.Reports author o e := by
  refine ⟨?_, ?_, ?_⟩
  · intro e m' s' hrun
    rw [addVariables_eq] at hrun
    obtain ⟨author, o, ho, rfl⟩ := failure_of_assemble (d.projects_addVariableAt describe)
      (d.failsFor_addVariableAt describe) hrun
    refine ⟨author, o, ho, Label.reports_attach _ ?_⟩
    rintro rfl
    exact ho.not_isLabelled VariableFailure.not_isLabelled
  · intro e m' s' hrun
    rw [addConstraints_eq] at hrun
    obtain ⟨author, o, ho, rfl⟩ := failure_of_assemble (d.projects_addConstraintsAt registry relate)
      (d.failsFor_addConstraintsAt registry relate) hrun
    refine ⟨author, o, ho, Label.reports_attach _ ?_⟩
    rintro rfl
    exact ho.not_isLabelled ConstraintFailure.not_isLabelled
  · intro e m' s' hrun
    obtain ⟨author, o, ho, rfl⟩ := failure_of_addSymmetricVariables hrun
    refine ⟨author, o, ho, Label.reports_attach _ ?_⟩
    rintro rfl
    exact ho.not_isLabelled

/-- A description that puts a label of its own on its failure, a relation that describes no set, and
a matrix without indices. -/
theorem failure_carries_label_single :
    let d : Declaration := ⟨some ⟨"x"⟩, [], none, .auto⟩
    let m : Model Float := .empty 7 true
    let own : Error := ⟨.downstream, .generic, some "In `data`: no value"⟩
    let describe : Builder Unit (VariableDecl Float) := fun _ => ExceptT.mk fun s => (.error own, s)
    let relate : Builder Unit (Relation Float) := fun _ =>
      pure (.oneSided (.constant 1.0) .lt (.constant 2.0) false)
    (∃ m', (d.addVariables ⟨[]⟩ describe).exec (m, ()) = (.error own, (m', ())) ∧
        ∃ author o, d.variableLabel.Reports author o own) ∧
      (∃ e m', (d.addConstraints .standard ⟨[]⟩ relate).exec (m, ()) = (.error e, (m', ())) ∧
        e.details =
          some "In `constraint x`: unrecognized relation `<`; expected <=, >= or ==" ∧
        ∃ author o, d.constraintLabel.Reports author o e) ∧
      ∃ e m', (d.addSymmetricVariables .standard ⟨[]⟩ false describe).exec (m, ()) =
          (.error e, (m', ())) ∧
        e.details =
          some "In `variable x`: symmetric matrices must be two-dimensional, got 0 indices" ∧
        ∃ author o, d.variableLabel.Reports author o e := by
  intro d m own describe relate
  obtain ⟨hvariables, hconstraints, hmatrix⟩ :=
    failure_carries_label d .standard ⟨[]⟩ false describe relate m ()
  refine ⟨⟨m, rfl, ?_⟩, ⟨_, m, rfl, by decide +kernel, ?_⟩, _, m, rfl, by decide +kernel, ?_⟩
  · obtain ⟨author, o, -, h⟩ := hvariables own m () rfl
    exact ⟨author, o, h⟩
  · obtain ⟨author, o, -, h⟩ := hconstraints _ m () rfl
    exact ⟨author, o, h⟩
  · obtain ⟨author, o, -, h⟩ := hmatrix _ m () rfl
    exact ⟨author, o, h⟩

end Declaration

end AlgebraicModel
