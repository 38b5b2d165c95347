import AlgebraicModel.Proofs.Model.Assembly

/-!
# Integrity of models

A model is worked on by calls: adding a variable or a constraint, registering a name, and adding the
collection of a declaration. A call may fail, and one that adds a collection may then have added a
part of it. Over any run of calls the constraints of a model stay on its own variables, what a call
gave back goes on denoting the same, and a registered name keeps its object (`Model.integrity`).
Each call evolves the model (`Model.Operation.evolves_perform`), and so does a run
(`Model.evolves_run`).
-/

set_option autoImplicit false

namespace AlgebraicModel

open Outcome

/-! ## What a constraint refers to -/

section Mentions

variable {α : Type} {v : VarRef}

/-- The function has a term with the variable. -/
def Affine.Mentions (f : Affine α) (v : VarRef) : Prop := ∃ c, (v, c) ∈ f.terms

/-- The function has a term with the variable, alone or in a product. -/
def Quadratic.Mentions (f : Quadratic α) (v : VarRef) : Prop :=
  f.affine.Mentions v ∨ ∃ p c, (p, c) ∈ f.terms ∧ (v = p.1 ∨ v = p.2)

/-- The variable stands anywhere in the function. -/
def ConstraintFunction.Mentions (v : VarRef) : ConstraintFunction α → Prop
  | singleVariable w => v = w
  | vectorOfVariables vs => v ∈ vs
  | affine f => f.Mentions v
  | vectorAffine fs => ∃ f ∈ fs, f.Mentions v
  | quadratic f => f.Mentions v

theorem Affine.mem_vars_iff {f : Affine α} : v ∈ f.vars ↔ f.Mentions v := by
  simp [vars, Mentions]

theorem Quadratic.mem_vars_iff {f : Quadratic α} : v ∈ f.vars ↔ f.Mentions v := by
  simp [vars, Mentions, Affine.mem_vars_iff]

/-- The variables that a model checks are all that a function mentions. -/
theorem ConstraintFunction.mem_vars_iff {f : ConstraintFunction α} : v ∈ f.vars ↔ f.Mentions v := by
  cases f with
  | singleVariable w => exact List.mem_singleton
  | vectorOfVariables vs => exact Iff.rfl
  | affine f => exact Affine.mem_vars_iff
  | vectorAffine fs => simp [vars, Mentions, Affine.mem_vars_iff]
  | quadratic f => exact Quadratic.mem_vars_iff

end Mentions

namespace Model

/-! ## Calls and runs -/

/-- A call on a model. A description comes with the state that it starts from. -/
inductive Operation (α : Type) : Type 1 where
  | addVariable (info : VariableInfo α) (name : Option Name)
  | addConstraint (c : Constraint α) (name : Option Name)
  | registerName (n : Name) (o : NamedObject)
  | addVariables {σ : Type} (d : Declaration) (params : Params)
      (describe : Builder σ (VariableDecl α)) (s : σ)
  | addConstraints {σ : Type} (d : Declaration) (registry : Registry α) (params : Params)
      (describe : Builder σ (Relation α)) (s : σ)
  | addSymmetricVariables {σ : Type} (d : Declaration) (registry : Registry α) (params : Params)
      (psd : Bool) (describe : Builder σ (VariableDecl α)) (s : σ)

/-- What a successful call gives back, and the name that it registers. -/
structure Returned where
  vars : List VarRef
  constraints : List ConstraintRef
  registered : Option (Name × NamedObject)

variable {α : Type}

/-- The references denote entries of the model, and the name stands for its object. -/
structure Returned.In (r : Returned) (m : Model α) : Prop where
  vars : ∀ v ∈ r.vars, m.DenotesVariable v
  constraints : ∀ c ∈ r.constraints, m.DenotesConstraint c
  registered : ∀ p ∈ r.registered, m.lookup? p.1 = some p.2

namespace Operation

/-- Whether the call adds or registers a single object. -/
def isSingle : Operation α → Bool
  | addVariable .. | addConstraint .. | registerName .. => true
  | _ => false

/-- What comes of an assembly that works on a model and on the state of a description. -/
def outcome {σ β : Type} (x : AssemblyM α σ β) (s : σ) (returned : β → Returned) (m : Model α) :
    Except Error Returned × Model α :=
  ((x.exec (m, s)).1.map returned, (x.exec (m, s)).2.1)

/-- What is left of a model after a call that gave this back: the model has evolved, no name was
registered by a failure, and what was given back is in the model. -/
abbrev Sound (m : Model α) (out : Except Error Returned × Model α) : Prop :=
  Leaves true (fun m r => r.In m) m out.1 out.2

theorem sound_outcome {σ β : Type} {x : AssemblyM α σ β} {P : Model α → β → Prop}
    {returned : β → Returned} (hx : Completes x P) (h : ∀ m b, P m b → (returned b).In m) (s : σ)
    (m : Model α) : Sound m (outcome x s returned m) := by
  obtain ⟨hevolves, hnames, hresult⟩ := hx m s
  refine ⟨hevolves, fun hfails => hnames (hfails.imp_right fails_map_iff.1), fun r hr => ?_⟩
  obtain ⟨b, hb, rfl⟩ := map_eq_ok_iff.1 hr
  exact h _ b (hresult b hb)

variable [Closeness] [Coefficient α] [Zero α] [One α] [Neg α] [Add α] [Sub α] [Mul α]

/-- What a call gives back, and the model that it leaves. -/
def perform (op : Operation α) (m : Model α) : Except Error Returned × Model α :=
  match op with
  | addVariable info name => outcome (pushVariable info name) () (fun v => ⟨[v], [], none⟩) m
  | addConstraint c name => outcome (pushConstraint c name) () (fun r => ⟨[], [r], none⟩) m
  | registerName n o =>
    match m.registerName n o with
    | .ok m' => (.ok ⟨[], [], some (n, o)⟩, m')
    | .error e => (.error (.ofCause e), m)
  | addVariables d params describe s =>
    outcome (d.addVariables params describe) s
      (fun c => ⟨c.values, [], d.name.map (·, c.variableObject)⟩) m
  | addConstraints d registry params describe s =>
    outcome (d.addConstraints registry params describe) s
      (fun c => ⟨[], c.values.flatMap ConstraintRefs.toList, d.name.map (·, c.constraintObject)⟩) m
  | addSymmetricVariables d registry params psd describe s =>
    outcome (d.addSymmetricVariables registry params psd describe) s
      (fun x => ⟨x.matrix.values.map (·.value), x.psdConstraint.toList,
        d.name.map (·, .vars (x.matrix.upperTriangle.map (·.value)))⟩) m

/-! ## One call -/

theorem sound_registerName (n : Name) (o : NamedObject) (m : Model α) :
    Sound m ((registerName n o).perform m) := by
  rw [perform]
  rcases m.registerName_cases n o with ⟨-, herror⟩ | ⟨hfree, hok⟩
  · rw [herror]
    exact .unchanged fun r hr => by cases hr
  · rw [hok]
    refine ⟨evolves_consName hfree o, fun h => ?_, fun r hr => ?_⟩
    · exact absurd (h.resolve_left (by simp)) (not_fails_ok _)
    cases hr
    refine ⟨by simp, by simp, fun p hp => ?_⟩
    cases hp
    exact (m.lookup?_cons n n o).trans (if_pos rfl)

/-- What any call does to a model, and what it gives back. -/
theorem sound_perform (op : Operation α) (m : Model α) : Sound m (op.perform m) := by
  cases op with
  | addVariable info name =>
    refine sound_outcome (adds_pushVariable info name).toCompletes (fun m v hv => ?_) () m
    exact ⟨by simpa using hv, by simp, by simp⟩
  | addConstraint c name =>
    refine sound_outcome (adds_pushConstraint c name).toCompletes (fun m r hr => ?_) () m
    exact ⟨by simp, by simpa using hr, by simp⟩
  | registerName n o => exact sound_registerName n o m
  | addVariables d params describe s =>
    refine sound_outcome (d.completes_addVariables params describe) (fun m c hc => ?_) s m
    exact ⟨hc.1, by simp, by simpa using hc.2⟩
  | addConstraints d registry params describe s =>
    refine sound_outcome (d.completes_addConstraints registry params describe)
      (fun m c hc => ?_) s m
    exact ⟨by simp, hc.1, by simpa using hc.2⟩
  | addSymmetricVariables d registry params psd describe s =>
    refine sound_outcome (d.completes_addSymmetricVariables registry params psd describe)
      (fun m x hx => ?_) s m
    exact ⟨hx.1, hx.2.1, by simpa using hx.2.2⟩

/-- A constraint is refused exactly when it mentions a variable that the model does not have. -/
theorem fails_addConstraint_iff {c : Constraint α} {name : Option Name} {m : Model α} :
    Fails ((addConstraint c name).perform m).1 ↔
      ∃ v, c.func.Mentions v ∧ (v.model ≠ m.id ∨ m.vars.size ≤ v.index) := by
  have hvars : (∃ v, c.func.Mentions v ∧ (v.model ≠ m.id ∨ m.vars.size ≤ v.index)) ↔
      Fails (m.addConstraint c name) := by
    simp only [Model.fails_addConstraint_iff, ConstraintFunction.mem_vars_iff, denotesVariable_iff,
      not_and_or, not_lt, ne_eq]
  rw [hvars, perform, outcome, fails_map_iff]
  cases hadd : m.addConstraint c name with
  | error e =>
    rw [exec_pushConstraint_of_error hadd]
    exact iff_of_true ⟨_, rfl⟩ ⟨_, rfl⟩
  | ok r =>
    rw [exec_pushConstraint_of_ok hadd]
    exact iff_of_false (not_fails_ok _) (not_fails_ok _)

/-- A name is registered exactly when it stands for nothing yet. -/
theorem fails_registerName_iff {n : Name} {o : NamedObject} {m : Model α} :
    Fails ((registerName n o).perform m).1 ↔ ∃ o', m.lookup? n = some o' := by
  rw [← Model.fails_registerName_iff (o := o), perform]
  cases m.registerName n o with
  | error e => exact iff_of_true ⟨_, rfl⟩ ⟨_, rfl⟩
  | ok m' => exact iff_of_false (not_fails_ok _) (not_fails_ok _)

/-- A call on a single object that fails leaves the model as it was. -/
theorem perform_of_fails {op : Operation α} {m : Model α} (hop : op.isSingle = true)
    (hfails : Fails (op.perform m).1) : (op.perform m).2 = m := by
  cases op with
  | addVariable info name => exact absurd hfails (not_fails_ok _)
  | addConstraint c name =>
    rw [perform, outcome] at hfails ⊢
    cases hadd : m.addConstraint c name with
    | error e => rw [exec_pushConstraint_of_error hadd]
    | ok r =>
      rw [exec_pushConstraint_of_ok hadd] at hfails
      exact absurd hfails (not_fails_ok _)
  | registerName n o =>
    rw [perform] at hfails ⊢
    cases hregister : m.registerName n o with
    | error e => rfl
    | ok m' =>
      rw [hregister] at hfails
      exact absurd hfails (not_fails_ok _)
  | _ => cases hop

end Operation

/-! ## Runs -/

theorem wellFormed_empty (id : Nat) (stringNames : Bool) :
    (empty id stringNames : Model α).WellFormed := by
  intro e he
  simp [empty] at he

variable [Closeness] [Coefficient α] [Zero α] [One α] [Neg α] [Add α] [Sub α] [Mul α]

/-- The model after a list of calls, whether they succeed or fail. -/
def run (m : Model α) (ops : List (Operation α)) : Model α :=
  ops.foldl (fun m op => (op.perform m).2) m

/-- Over a run a model evolves. -/
theorem evolves_run (m : Model α) (ops : List (Operation α)) : m.Evolves (m.run ops) := by
  induction ops generalizing m with
  | nil => exact Evolves.refl m
  | cons op ops ih => exact (op.sound_perform m).evolves.trans (ih (op.perform m).2)

/-- Integrity of a model over any run of calls, failing or not, with any descriptions and
registries. Before a call, every constraint is on variables of the model. What the call gives back
denotes an entry of the model right after it and the same entry after all later calls, and the name
that it registers keeps its object, as does every name before. A call on a single object that fails
changes nothing, as one does that refers to a variable that the model does not have or to a name
that is taken, and any other call that fails registers no name. -/
theorem integrity (id : Nat) (stringNames : Bool) (before : List (Operation α)) (op : Operation α)
    (after : List (Operation α)) :
    let m : Model α := (empty id stringNames).run before
    let m' := (op.perform m).2
    let later := m'.run after
    (∀ e ∈ m.constraints, ∀ v, e.content.func.Mentions v →
        v.model = id ∧ v.index < m.vars.size) ∧
      (∀ r, (op.perform m).1 = .ok r →
        (∀ v ∈ r.vars, ∃ e, variableEntry? m' v = some e ∧ variableEntry? later v = some e) ∧
          (∀ c ∈ r.constraints, ∃ e, constraintEntry? m' c = some e ∧
            constraintEntry? later c = some e) ∧
          ∀ n o, r.registered = some (n, o) → m'.lookup? n = some o ∧ later.lookup? n = some o) ∧
      (∀ n o, m.lookup? n = some o → m'.lookup? n = some o ∧ later.lookup? n = some o) ∧
      (∀ e, (op.perform m).1 = .error e →
        m'.names = m.names ∧ (op.isSingle = true → m' = m)) ∧
      (∀ c name, Fails ((Operation.addConstraint c name).perform m).1 ↔
        ∃ v, c.func.Mentions v ∧ (v.model ≠ id ∨ m.vars.size ≤ v.index)) ∧
      ∀ n o, Fails ((Operation.registerName n o).perform m).1 ↔ ∃ o', m.lookup? n = some o' := by
  intro m m' later
  have hreach : (empty id stringNames).Evolves m := evolves_run _ before
  have hid : m.id = id := hreach.id
  have hsound : Operation.Sound m (op.perform m) := op.sound_perform m
  have hlater : m'.Evolves later := evolves_run m' after
  refine ⟨fun e he v hv => ?_, fun r hr => ⟨fun v hv => ?_, fun c hc => ?_, fun n o hn => ?_⟩,
    fun n o ho => ?_, fun e he => ⟨hsound.names (.inr ⟨e, he⟩), fun hop => ?_⟩, fun c name => ?_,
    fun n o => Operation.fails_registerName_iff⟩
  · -- the constraints were on variables of the model when they were added
    have hvar := hreach.wellFormed (wellFormed_empty id stringNames) e he v
      (ConstraintFunction.mem_vars_iff.2 hv)
    rwa [denotesVariable_iff, hid] at hvar
  · obtain ⟨e, he⟩ := (hsound.result r hr).vars v hv
    exact ⟨e, he, hlater.variableEntry v e he⟩
  · obtain ⟨e, he⟩ := (hsound.result r hr).constraints c hc
    exact ⟨e, he, hlater.constraintEntry c e he⟩
  · have hname := (hsound.result r hr).registered (n, o) hn
    exact ⟨hname, hlater.lookup n o hname⟩
  · have hname := hsound.evolves.lookup n o ho
    exact ⟨hname, hlater.lookup n o hname⟩
  · exact Operation.perform_of_fails hop ⟨e, he⟩
  · rw [Operation.fails_addConstraint_iff, hid]

end Model

end AlgebraicModel
