import AlgebraicModel.Model.Assembly
import AlgebraicModel.Proofs.Container.Contents
import AlgebraicModel.Proofs.Model.Growth
import AlgebraicModel.Proofs.Population.Calls
import AlgebraicModel.Proofs.Population.Triangle

/-!
# What an assembly does to a model

An assembly adds to the model at hand while it calls descriptions, and it may stop anywhere. Whether
it succeeds or not, the model evolves. Its names stay as they are (`Model.Adds`), until at the end
the name of a declaration is registered, which a failure does not do (`Model.Completes`). What an
assembly gives back denotes entries of the model, as long as this is so for what it builds.
Variables and constraints are two instances of one assembly, which differ in how an element is built
and in the object that is registered (`Declaration.assemble`).
-/

set_option autoImplicit false

namespace AlgebraicModel

open Outcome

variable {α σ β γ : Type}

namespace Model

/-! ## Assemblies, one after the other -/

/-- What may be left of a model `m` by a computation with the outcome `r`: a model that has evolved
from it and in which the result has a property. The names are those of `m`, unless the computation
may register one and has not failed. -/
structure Leaves (registers : Bool) (P : Model α → β → Prop) (m : Model α) (r : Except Error β)
    (m' : Model α) : Prop where
  evolves : m.Evolves m'
  names : registers = false ∨ Fails r → m'.names = m.names
  result : ∀ b, r = .ok b → P m' b

/-- What an assembly does to any model, whatever the state of the caller is. -/
def Assembles (registers : Bool) (x : AssemblyM α σ β) (P : Model α → β → Prop) : Prop :=
  ∀ m s, Leaves registers P m (x.exec (m, s)).1 (x.exec (m, s)).2.1

/-- The assembly adds to a model and registers no name. -/
abbrev Adds (x : AssemblyM α σ β) (P : Model α → β → Prop) : Prop := Assembles false x P

/-- The assembly adds to a model, and it may register a name if it does not fail. -/
abbrev Completes (x : AssemblyM α σ β) (P : Model α → β → Prop) : Prop := Assembles true x P

/-- A property of a result in a model that holds on when the model grows. -/
def Stable (P : Model α → β → Prop) : Prop :=
  ∀ m m' : Model α, m.Extends m' → ∀ b, P m b → P m' b

theorem Leaves.unchanged {registers : Bool} {P : Model α → β → Prop} {m : Model α}
    {r : Except Error β} (h : ∀ b, r = .ok b → P m b) : Leaves registers P m r m :=
  ⟨Evolves.refl m, fun _ => rfl, h⟩

theorem Assembles.mono {registers : Bool} {x : AssemblyM α σ β} {P Q : Model α → β → Prop}
    (hx : Assembles registers x P) (h : ∀ m b, P m b → Q m b) : Assembles registers x Q :=
  fun m s => ⟨(hx m s).evolves, (hx m s).names, fun b hb => h _ b ((hx m s).result b hb)⟩

/-- An assembly that registers no name at all registers none where it fails. -/
theorem Assembles.toCompletes {x : AssemblyM α σ β} {P : Model α → β → Prop} (hx : Adds x P) :
    Completes x P :=
  fun m s => ⟨(hx m s).evolves, fun _ => (hx m s).names (.inl rfl), (hx m s).result⟩

theorem adds_ofExcept (x : Except Error β) :
    Adds (BuildM.ofExcept x : AssemblyM α σ β) fun _ b => x = .ok b :=
  fun _ _ => .unchanged fun _ hb => hb

theorem adds_pure (b : β) : Adds (pure b : AssemblyM α σ β) fun _ b' => b' = b := by
  intro m s
  refine .unchanged fun b' hb => ?_
  cases hb
  rfl

theorem adds_onSecond (x : BuildM σ β) :
    Adds (BuildM.onSecond x : AssemblyM α σ β) fun _ _ => True :=
  fun _ _ => .unchanged fun _ _ => trivial

theorem Assembles.labelled {registers : Bool} {x : AssemblyM α σ β} {P : Model α → β → Prop}
    (hx : Assembles registers x P) (l : Label) : Assembles registers (BuildM.labelled l x) P := by
  intro m s
  obtain ⟨hevolves, hnames, hresult⟩ := hx m s
  rw [BuildM.exec_labelled]
  refine ⟨hevolves, fun h => hnames ?_, fun b hb => hresult b (mapError_eq_ok_iff.1 hb)⟩
  exact h.imp_right fails_mapError_iff.1

/-- One assembly after the other, the first of which registers no name: what it gave back has its
property still. -/
theorem Assembles.bind {registers : Bool} {x : AssemblyM α σ β} {f : β → AssemblyM α σ γ}
    {P : Model α → β → Prop} {Q : β → Model α → γ → Prop} (hx : Adds x P) (hP : Stable P)
    (hf : ∀ b, Assembles registers (f b) (Q b)) :
    Assembles registers (x >>= f) fun m c => ∃ b, P m b ∧ Q b m c := by
  intro m s
  have hfirst := hx m s
  rw [BuildM.exec_bind]
  generalize x.exec (m, s) = out at hfirst ⊢
  obtain ⟨r, m', s'⟩ := out
  have hnames : m'.names = m.names := hfirst.names (.inl rfl)
  cases r with
  | error e => exact ⟨hfirst.evolves, fun _ => hnames, fun c hc => by cases hc⟩
  | ok b =>
    have hsecond := hf b m' s'
    refine ⟨hfirst.evolves.trans hsecond.evolves, fun h => (hsecond.names h).trans hnames, ?_⟩
    intro c hc
    have hb : P m' b := hfirst.result b rfl
    exact ⟨b, hP m' _ hsecond.evolves.toExtends b hb, hsecond.result c hc⟩

/-- One assembly after the other, whatever the first one gives back. -/
theorem Assembles.andThen {registers : Bool} {x : AssemblyM α σ β} {f : β → AssemblyM α σ γ}
    {P : Model α → β → Prop} {Q : Model α → γ → Prop} (hx : Adds x P)
    (hf : ∀ b, Assembles registers (f b) Q) : Assembles registers (x >>= f) Q := by
  have hx' : Adds x fun _ _ => True := hx.mono fun _ _ _ => trivial
  refine (hx'.bind (fun _ _ _ _ _ => trivial) hf).mono fun m c h => ?_
  obtain ⟨-, -, h⟩ := h
  exact h

/-- An assembly whose result is made into another one. -/
theorem Assembles.map {x : AssemblyM α σ β} {P : Model α → β → Prop} {Q : Model α → γ → Prop}
    (hx : Adds x P) (hP : Stable P) {g : β → γ} (h : ∀ m b, P m b → Q m (g b)) :
    Adds (x >>= fun b => pure (g b)) Q := by
  refine (hx.bind hP fun b => adds_pure (g b)).mono fun m c hc => ?_
  obtain ⟨b, hb, rfl⟩ := hc
  exact h m b hb

theorem Stable.comp {P : Model α → β → Prop} (hP : Stable P) (g : γ → β) :
    Stable fun (m : Model α) c => P m (g c) :=
  fun m m' h c hc => hP m m' h (g c) hc

theorem Stable.forall_mem {P : Model α → β → Prop} (hP : Stable P) {items : γ → List β} :
    Stable fun (m : Model α) c => ∀ b ∈ items c, P m b :=
  fun m m' h _ hc b hb => hP m m' h b (hc b hb)

/-- Assemblies along a list. -/
theorem Assembles.mapM {f : γ → AssemblyM α σ β} {P : Model α → β → Prop} (hP : Stable P)
    (h : ∀ x, Adds (f x) P) (xs : List γ) :
    Adds (xs.mapM f) fun m bs => ∀ b ∈ bs, P m b := by
  induction xs with
  | nil =>
    rw [List.mapM_nil]
    exact (adds_pure []).mono fun _ _ hbs b hb => by simp [hbs] at hb
  | cons x xs ih =>
    rw [List.mapM_cons]
    refine ((h x).bind hP fun b => ih.bind hP.forall_mem fun bs => adds_pure (b :: bs)).mono ?_
    rintro m _ ⟨b, hb, bs, hbs, rfl⟩
    exact List.forall_mem_cons.2 ⟨hb, hbs⟩

/-! ## The steps of an assembly -/

theorem stable_denotesVariable : Stable (DenotesVariable (α := α)) :=
  fun _ _ h _ hv => hv.extends h

theorem stable_denotesConstraint : Stable (DenotesConstraint (α := α)) :=
  fun _ _ h _ hc => hc.extends h

theorem adds_pushVariable (info : VariableInfo α) (name : Option Name) :
    Adds (pushVariable info name : AssemblyM α σ VarRef) DenotesVariable := by
  intro m s
  rw [pushVariable, BuildM.exec_onFirst, BuildM.exec_get_bind]
  refine ⟨m.evolves_addVariable info name, fun _ => rfl, fun v hv => ?_⟩
  cases hv
  exact ⟨_, m.variableEntry?_addVariable info name⟩

theorem exec_pushConstraint_of_ok {c : Constraint α} {name : Option Name} {m m' : Model α}
    {r : ConstraintRef} (h : m.addConstraint c name = .ok (r, m')) (s : σ) :
    (pushConstraint c name).exec (m, s) = (.ok r, (m', s)) := by
  rw [pushConstraint, BuildM.exec_onFirst, BuildM.exec_get_bind, BuildM.exec_ofExcept_bind, h]
  rfl

/-- A constraint that is refused leaves the model as it was. -/
theorem exec_pushConstraint_of_error {c : Constraint α} {name : Option Name} {m : Model α}
    {e : ModelError} (h : m.addConstraint c name = .error e) (s : σ) :
    (pushConstraint c name).exec (m, s) = (.error (.ofCause e), (m, s)) := by
  rw [pushConstraint, BuildM.exec_onFirst, BuildM.exec_get_bind, BuildM.exec_ofExcept_bind, h]
  rfl

theorem adds_pushConstraint (c : Constraint α) (name : Option Name) :
    Adds (pushConstraint c name : AssemblyM α σ ConstraintRef) DenotesConstraint := by
  intro m s
  rcases m.addConstraint_cases c name with ⟨v, -, -, herror⟩ | ⟨hall, hok⟩
  · rw [exec_pushConstraint_of_error herror]
    exact .unchanged fun r hr => by cases hr
  · rw [exec_pushConstraint_of_ok hok]
    refine ⟨evolves_pushConstraint hall, fun _ => rfl, fun r hr => ?_⟩
    cases hr
    exact ⟨_, m.constraintEntry?_pushConstraint _⟩

end Model

/-! ## Populations -/

section Populations

variable {P : Model α → β → Prop} {build : Builder (Model α × σ) β}

theorem Plan.adds_buildAll (hP : Model.Stable P) (hbuild : ∀ b, Model.Adds (build b) P) (p : Plan)
    (l : Label) (params : Params) (keys : List Key) :
    Model.Adds (p.buildAll l params build keys) fun m bs => ∀ b ∈ bs, P m b :=
  Model.Assembles.mapM hP (fun _ => (hbuild _).labelled l) keys

/-- Every element of a populated container has the property that the built elements have. -/
theorem Plan.adds_populate [Closeness] (hP : Model.Stable P) (hbuild : ∀ b, Model.Adds (build b) P)
    (p : Plan) (l : Label) (params : Params) :
    Model.Adds (p.populate l params build) fun m c => ∀ b ∈ c.values, P m b := by
  unfold Plan.populate
  split
  · exact ((hbuild _).labelled l).map hP fun m b hb => by simpa [Container.values] using hb
  · refine (Model.adds_ofExcept _).andThen fun sets => ?_
    refine (p.adds_buildAll hP hbuild l params _).map hP.forall_mem fun m bs hbs => ?_
    simpa [Container.values] using hbs
  · refine (Model.adds_ofExcept _).andThen fun sets => ?_
    refine (Model.adds_ofExcept _).andThen fun axes => ?_
    refine (p.adds_buildAll hP hbuild l params _).map hP.forall_mem fun m bs hbs => ?_
    simpa [Container.values] using hbs
  · refine (Model.adds_ofExcept _).andThen fun keys => ?_
    refine (p.adds_buildAll hP hbuild l params _).map hP.forall_mem fun m bs hbs => ?_
    exact fun b hb => hbs b (Container.mem_of_mem_values_ofList hb)

/-- The cells of a reflected matrix hold elements of its upper triangle. -/
theorem Declaration.value_mem_of_mem_reflect {n : Nat} {upper : List β} {x : Shared β}
    (h : x ∈ (reflect n upper).data) : x.value ∈ upper := by
  obtain ⟨cell, -, hx⟩ := List.mem_filterMap.1 (List.mem_toArray.1 h)
  obtain ⟨a, ha, rfl⟩ := Option.map_eq_some_iff.1 hx
  exact List.mem_of_getElem? ha

theorem Declaration.adds_populateSymmetric [Closeness] (hP : Model.Stable P)
    (hbuild : ∀ b, Model.Adds (build b) P) (l : Label) (d : Declaration) (params : Params) :
    Model.Adds (d.populateSymmetric l params build) fun m c => ∀ x ∈ c.values, P m x.value := by
  rw [populateSymmetric_eq]
  refine (Model.adds_ofExcept _).andThen fun n => ?_
  refine (Model.Assembles.mapM hP (fun cell => ?_) (upperCells n)).map hP.forall_mem
    fun m upper hupper x hx => ?_
  · exact (hbuild _).labelled l
  · exact hupper _ (value_mem_of_mem_reflect (Array.mem_toList_iff.1 hx))

end Populations

/-! ## Elements -/

namespace Declaration

theorem adds_addGroup (name : Option Name) (group : ConstraintGroup α) :
    Model.Adds (addGroup name group : AssemblyM α σ ConstraintRefs)
      fun m refs => ∀ c ∈ refs.toList, m.DenotesConstraint c := by
  cases group with
  | single c =>
    refine (Model.adds_pushConstraint c name).map Model.stable_denotesConstraint fun m r hr => ?_
    simpa [ConstraintRefs.toList] using hr
  | broadcast cs =>
    refine (Model.Assembles.mapM Model.stable_denotesConstraint (fun p => ?_) cs.zipIdx).map
      Model.stable_denotesConstraint.forall_mem fun m refs hrefs => hrefs
    exact Model.adds_pushConstraint p.1 _

variable [Coefficient α] (d : Declaration)

theorem adds_addVariableAt (describe : Builder σ (VariableDecl α)) (b : Bindings) :
    Model.Adds (d.addVariableAt describe b) Model.DenotesVariable := by
  refine (Model.adds_onSecond _).andThen fun decl => ?_
  refine (Model.adds_ofExcept _).andThen fun info => ?_
  exact Model.adds_pushVariable info _

theorem adds_addPsdConstraint (registry : Registry α) (side : Nat) (upper : List VarRef) :
    Model.Adds (d.addPsdConstraint registry side upper : AssemblyM α σ ConstraintRef)
      Model.DenotesConstraint := by
  refine (Model.adds_ofExcept _).andThen fun c => ?_
  exact (Model.adds_pushConstraint c none).labelled d.variableLabel

variable [Zero α] [One α] [Neg α] [Add α] [Sub α] [Mul α]

theorem adds_addConstraintsAt (registry : Registry α) (describe : Builder σ (Relation α))
    (b : Bindings) :
    Model.Adds (d.addConstraintsAt registry describe b)
      fun m refs => ∀ c ∈ refs.toList, m.DenotesConstraint c := by
  refine (Model.adds_onSecond _).andThen fun relation => ?_
  refine (Model.adds_ofExcept _).andThen fun form => ?_
  refine (Model.adds_ofExcept _).andThen fun group => ?_
  exact adds_addGroup _ group

end Declaration

/-! ## The name at the end -/

namespace Model

/-- What a model has become when a name was registered, if there was one. -/
def named (m : Model α) (name : Option Name) (o : NamedObject) : Model α :=
  { m with names := (name.map (·, o)).toList ++ m.names }

/-- The name at the end is refused if it is taken, and registered otherwise. -/
theorem exec_pushName (l : Label) (name : Option Name) (o : NamedObject) (m : Model α) (s : σ) :
    (∃ n, name = some n ∧ (∃ o', m.lookup? n = some o') ∧
        (pushName l name o).exec (m, s) = (.error (l.report (ModelError.duplicateName n)), (m, s))) ∨
      (∀ n ∈ name, m.lookup? n = none) ∧
        (pushName l name o).exec (m, s) = (.ok (), (m.named name o, s)) := by
  cases name with
  | none => exact .inr ⟨by simp, rfl⟩
  | some n =>
    rw [pushName, BuildM.exec_onFirst, BuildM.exec_get_bind, BuildM.exec_ofExcept_bind]
    rcases m.registerName_cases n o with ⟨htaken, herror⟩ | ⟨hfree, hok⟩
    · rw [herror]
      exact .inl ⟨n, rfl, htaken, rfl⟩
    · rw [hok]
      refine .inr ⟨?_, rfl⟩
      rintro n' hn
      cases hn
      exact hfree

/-- Only the registered name has a new meaning. -/
theorem lookup?_named (m : Model α) (name : Option Name) (o : NamedObject) (n : Name) :
    (m.named name o).lookup? n = if name = some n then some o else m.lookup? n := by
  cases name with
  | none => rfl
  | some n' =>
    change lookup? { m with names := (n', o) :: m.names } n = _
    rw [lookup?_cons]
    refine if_congr ?_ rfl rfl
    rw [Option.some.injEq, eq_comm]

/-- A free name may be registered. -/
theorem evolves_named {m : Model α} {name : Option Name} (hfree : ∀ n ∈ name, m.lookup? n = none)
    (o : NamedObject) : m.Evolves (m.named name o) := by
  cases name with
  | none => exact Evolves.refl m
  | some n => exact evolves_consName (hfree n rfl) o

/-- At the end the name of a declaration stands for what was added, and that is given back. -/
theorem completes_pushName (l : Label) (name : Option Name) (o : NamedObject) (b : β) :
    Completes (pushName l name o >>= fun _ => pure b : AssemblyM α σ β)
      fun m b' => b' = b ∧ ∀ n ∈ name, m.lookup? n = some o := by
  intro m s
  rw [BuildM.exec_bind]
  rcases exec_pushName l name o m s with ⟨n, -, -, herror⟩ | ⟨hfree, hok⟩
  · rw [herror]
    exact .unchanged fun b' hb => by cases hb
  · rw [hok]
    refine ⟨evolves_named hfree o, fun h => ?_, fun b' hb => ?_⟩
    · exact absurd (h.resolve_left (by simp)) (not_fails_ok b)
    cases hb
    exact ⟨rfl, fun n hn => (m.lookup?_named name o n).trans (if_pos hn)⟩

end Model

/-! ## Collections -/

namespace Declaration

variable [Closeness]

/-- Assembles a collection: its plan, its elements, and its name at the end. -/
def assemble (d : Declaration) (l : Label) (params : Params) (build : Builder (Model α × σ) γ)
    (object : Container γ → NamedObject) : AssemblyM α σ (Container γ) := do
  let plan ← BuildM.ofExcept (d.plan l)
  let c ← plan.populate l params build
  Model.pushName l d.name (object c)
  return c

theorem completes_assemble {P : Model α → γ → Prop} (hP : Model.Stable P)
    {build : Builder (Model α × σ) γ} (hbuild : ∀ b, Model.Adds (build b) P) (d : Declaration)
    (l : Label) (params : Params) (object : Container γ → NamedObject) :
    Model.Completes (d.assemble l params build object) fun m c =>
      (∀ x ∈ c.values, P m x) ∧ ∀ n ∈ d.name, m.lookup? n = some (object c) := by
  refine (Model.adds_ofExcept _).andThen fun plan => ?_
  refine ((plan.adds_populate hP hbuild l params).bind hP.forall_mem fun c =>
    Model.completes_pushName l d.name (object c) c).mono ?_
  rintro m _ ⟨c, hvalues, rfl, hname⟩
  exact ⟨hvalues, hname⟩

variable [Coefficient α] (d : Declaration)

theorem addVariables_eq (params : Params) (describe : Builder σ (VariableDecl α)) :
    d.addVariables params describe =
      d.assemble d.variableLabel params (d.addVariableAt describe) Container.variableObject := rfl

theorem completes_addVariables (params : Params) (describe : Builder σ (VariableDecl α)) :
    Model.Completes (d.addVariables params describe) fun m c =>
      (∀ v ∈ c.values, m.DenotesVariable v) ∧
        ∀ n ∈ d.name, m.lookup? n = some c.variableObject := by
  rw [addVariables_eq]
  exact completes_assemble Model.stable_denotesVariable (d.adds_addVariableAt describe) d
    d.variableLabel params Container.variableObject

/-- A symmetric matrix, what is added for it, and its name at the end. -/
theorem completes_populateSymmetric (params : Params) (describe : Builder σ (VariableDecl α))
    {x : Container (Shared VarRef) → AssemblyM α σ (Option ConstraintRef)}
    (hx : ∀ matrix, Model.Adds (x matrix) fun m r => ∀ c ∈ r.toList, m.DenotesConstraint c) :
    Model.Completes (do
      let matrix ← d.populateSymmetric d.variableLabel params (d.addVariableAt describe)
      let r ← x matrix
      Model.pushName d.variableLabel d.name (.vars (matrix.upperTriangle.map (·.value)))
      return SymmetricVariables.mk matrix r) fun m y =>
        (∀ v ∈ y.matrix.values.map (·.value), m.DenotesVariable v) ∧
          (∀ r ∈ y.psdConstraint.toList, m.DenotesConstraint r) ∧
            ∀ n ∈ d.name, m.lookup? n = some (.vars (y.matrix.upperTriangle.map (·.value))) := by
  have hpopulate := d.adds_populateSymmetric Model.stable_denotesVariable
    (d.adds_addVariableAt describe) d.variableLabel params
  refine (hpopulate.bind (Model.stable_denotesVariable.comp Shared.value).forall_mem
    fun matrix => (hx matrix).bind Model.stable_denotesConstraint.forall_mem fun r =>
      Model.completes_pushName d.variableLabel d.name _ (SymmetricVariables.mk matrix r)).mono ?_
  rintro m _ ⟨matrix, hmatrix, r, hr, rfl, hname⟩
  exact ⟨by simpa using hmatrix, hr, hname⟩

theorem completes_addSymmetricVariables (registry : Registry α) (params : Params) (psd : Bool)
    (describe : Builder σ (VariableDecl α)) :
    Model.Completes (d.addSymmetricVariables registry params psd describe) fun m y =>
      (∀ v ∈ y.matrix.values.map (·.value), m.DenotesVariable v) ∧
        (∀ r ∈ y.psdConstraint.toList, m.DenotesConstraint r) ∧
          ∀ n ∈ d.name, m.lookup? n = some (.vars (y.matrix.upperTriangle.map (·.value))) := by
  cases psd with
  | true =>
    refine d.completes_populateSymmetric params describe fun matrix => ?_
    rw [map_eq_pure_bind]
    refine (d.adds_addPsdConstraint registry _ _).map Model.stable_denotesConstraint
      fun m c hc => ?_
    simpa using hc
  | false =>
    refine d.completes_populateSymmetric params describe fun matrix => ?_
    exact (Model.adds_pure none).mono fun m r hr => by simp [hr]

variable [Zero α] [One α] [Neg α] [Add α] [Sub α] [Mul α]

theorem addConstraints_eq (registry : Registry α) (params : Params)
    (describe : Builder σ (Relation α)) :
    d.addConstraints registry params describe =
      d.assemble d.constraintLabel params (d.addConstraintsAt registry describe)
        Container.constraintObject := rfl

theorem completes_addConstraints (registry : Registry α) (params : Params)
    (describe : Builder σ (Relation α)) :
    Model.Completes (d.addConstraints registry params describe) fun m c =>
      (∀ r ∈ c.values.flatMap ConstraintRefs.toList, m.DenotesConstraint r) ∧
        ∀ n ∈ d.name, m.lookup? n = some c.constraintObject := by
  rw [addConstraints_eq]
  refine (completes_assemble Model.stable_denotesConstraint.forall_mem
    (d.adds_addConstraintsAt registry describe) d d.constraintLabel params
    Container.constraintObject).mono fun m c h => ?_
  exact ⟨List.forall_mem_flatMap.2 h.1, h.2⟩

end Declaration

end AlgebraicModel
