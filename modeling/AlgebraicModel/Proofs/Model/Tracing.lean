import AlgebraicModel.Proofs.Model.Assembly

/-!
# A log disturbs no assembly

The calls that the caller's description gets can be seen by giving the assembly the traced
description in its place, which keeps a log. `BuildM.Projects` says that a computation does on a
state what another does on a view of the state, here on the state without the log. It goes through
every step that a population and an assembly are made of (`Plan.projects_populate`,
`Declaration.projects_assemble`), so an assembly with a traced description ends like the one
without, and `Model.logged` is what it has in the log (`Model.exec_of_projects`).
-/

set_option autoImplicit false

namespace AlgebraicModel

variable {σ τ υ α β γ : Type}

namespace BuildM

/-- One computation does on a state what another does on the view of it. -/
def Projects (view : σ → τ) (x : BuildM σ α) (y : BuildM τ α) : Prop :=
  ∀ s, y.exec (view s) = ((x.exec s).1, view (x.exec s).2)

variable {view : σ → τ}

theorem projects_pure (view : σ → τ) (a : α) : Projects view (pure a) (pure a) := fun _ => rfl

theorem projects_ofExcept (view : σ → τ) (x : Except Error α) :
    Projects view (ofExcept x) (ofExcept x) := fun _ => rfl

theorem Projects.bind {x : BuildM σ α} {y : BuildM τ α} {f : α → BuildM σ β} {g : α → BuildM τ β}
    (hx : Projects view x y) (hf : ∀ a, Projects view (f a) (g a)) :
    Projects view (x >>= f) (y >>= g) := by
  intro s
  rw [exec_bind, exec_bind, hx s]
  obtain ⟨r, s'⟩ := x.exec s
  cases r with
  | error e => rfl
  | ok a => exact hf a s'

theorem Projects.labelled {x : BuildM σ α} {y : BuildM τ α} (hx : Projects view x y) (l : Label) :
    Projects view (BuildM.labelled l x) (BuildM.labelled l y) := by
  intro s
  rw [exec_labelled, exec_labelled, hx s]

theorem Projects.mapM {f : γ → BuildM σ α} {g : γ → BuildM τ α}
    (h : ∀ c, Projects view (f c) (g c)) (cs : List γ) :
    Projects view (cs.mapM f) (cs.mapM g) := by
  induction cs with
  | nil => exact projects_pure view []
  | cons c cs ih =>
    rw [List.mapM_cons, List.mapM_cons]
    refine (h c).bind ?_
    intro a
    refine ih.bind ?_
    intro as
    exact projects_pure view (a :: as)

/-- What is done on the first part of a state is the same for every view of the second. -/
theorem projects_onFirst (view : τ → υ) (x : BuildM σ α) :
    Projects (Prod.map id view) (onFirst x) (onFirst x) := fun _ => rfl

theorem Projects.onSecond {x : BuildM σ α} {y : BuildM τ α} (hx : Projects view x y) :
    Projects (Prod.map (id : υ → υ) view) (BuildM.onSecond x) (BuildM.onSecond y) := by
  rintro ⟨u, s⟩
  change (BuildM.onSecond y).exec (u, view s) = _
  rw [exec_onSecond, hx s]
  rfl

end BuildM

open BuildM (Projects projects_pure projects_ofExcept projects_onFirst)

/-- Without its log, a traced description is the description. -/
theorem Builder.projects_traced (build : Builder σ α) (b : Bindings) :
    Projects Prod.snd (build.traced b) (build b) := fun _ => rfl

/-! ## Populations -/

section Populations

variable {view : σ → τ} {build : Builder σ α} {build' : Builder τ α}
  (hbuild : ∀ b, Projects view (build b) (build' b))

include hbuild

theorem Plan.projects_buildAll (p : Plan) (l : Label) (params : Params) (keys : List Key) :
    Projects view (p.buildAll l params build keys) (p.buildAll l params build' keys) := by
  refine Projects.mapM ?_ keys
  intro k
  exact (hbuild _).labelled l

theorem Plan.projects_populate [Closeness] (p : Plan) (l : Label) (params : Params) :
    Projects view (p.populate l params build) (p.populate l params build') := by
  unfold Plan.populate
  split
  · refine ((hbuild _).labelled l).bind ?_
    intro a
    exact projects_pure view _
  · refine (projects_ofExcept view _).bind ?_
    intro sets
    refine (p.projects_buildAll hbuild l params _).bind ?_
    intro data
    exact projects_pure view _
  · refine (projects_ofExcept view _).bind ?_
    intro sets
    refine (projects_ofExcept view _).bind ?_
    intro axes
    refine (p.projects_buildAll hbuild l params _).bind ?_
    intro data
    exact projects_pure view _
  · refine (projects_ofExcept view _).bind ?_
    intro keys
    refine (p.projects_buildAll hbuild l params _).bind ?_
    intro elements
    exact projects_pure view _

theorem Declaration.projects_populateSymmetric [Closeness] (d : Declaration) (l : Label)
    (params : Params) :
    Projects view (d.populateSymmetric l params build) (d.populateSymmetric l params build') := by
  rw [populateSymmetric_eq, populateSymmetric_eq]
  refine (projects_ofExcept view _).bind ?_
  intro n
  refine (Projects.mapM ?_ (upperCells n)).bind ?_
  · intro cell
    exact (hbuild _).labelled l
  · intro upper
    exact projects_pure view _

end Populations

/-! ## Assemblies -/

/-- The state of an assembly without the log of the caller's description. -/
abbrev withoutLog : Model α × List (Call β) × σ → Model α × σ := Prod.map id Prod.snd

namespace Model

/-- The calls that a description has got when it was traced from an empty log on. -/
def logged (x : AssemblyM α (List (Call β) × σ) γ) (m : Model α) (s : σ) : List (Call β) :=
  (x.exec (m, ([], s))).2.2.1

/-- An assembly with a traced description ends like the one without, and has a log. -/
theorem exec_of_projects {x : AssemblyM α (List (Call β) × σ) γ} {y : AssemblyM α σ γ}
    (h : Projects withoutLog x y) (m : Model α) (s : σ) :
    x.exec (m, ([], s)) =
      ((y.exec (m, s)).1, ((y.exec (m, s)).2.1, (logged x m s, (y.exec (m, s)).2.2))) := by
  have hplain : y.exec (m, s) = ((x.exec (m, ([], s))).1, withoutLog (x.exec (m, ([], s))).2) :=
    h (m, ([], s))
  rw [hplain]
  rfl

theorem projects_pushName (l : Label) (name : Option Name) (o : NamedObject) :
    Projects (withoutLog (α := α) (β := β) (σ := σ)) (pushName l name o) (pushName l name o) := by
  cases name with
  | none => exact projects_pure _ ()
  | some n =>
    unfold pushName
    exact projects_onFirst Prod.snd _

theorem projects_pushConstraint (c : Constraint α) (name : Option Name) :
    Projects (withoutLog (α := α) (β := β) (σ := σ)) (pushConstraint c name)
      (pushConstraint c name) :=
  projects_onFirst Prod.snd _

end Model

namespace Declaration

theorem projects_addGroup (name : Option Name) (group : ConstraintGroup α) :
    Projects (withoutLog (α := α) (β := β) (σ := σ)) (addGroup name group)
      (addGroup name group) := by
  cases group with
  | single c =>
    refine (Model.projects_pushConstraint c name).bind ?_
    intro r
    exact projects_pure _ _
  | broadcast cs =>
    refine Projects.bind (Projects.mapM ?_ cs.zipIdx) ?_
    · intro entry
      exact Model.projects_pushConstraint entry.1 _
    · intro refs
      exact projects_pure _ _

/-- A collection is assembled the same with a log, if this is so for its elements. -/
theorem projects_assemble [Closeness] (d : Declaration) {build : Builder (Model α × σ) γ}
    {traced : Builder (Model α × List (Call β) × σ) γ}
    (h : ∀ b, Projects withoutLog (traced b) (build b)) (l : Label) (params : Params)
    (object : Container γ → NamedObject) :
    Projects withoutLog (d.assemble l params traced object) (d.assemble l params build object) := by
  refine (projects_ofExcept _ _).bind ?_
  intro plan
  refine (plan.projects_populate h l params).bind ?_
  intro c
  refine (Model.projects_pushName l d.name _).bind ?_
  intro _
  exact projects_pure _ c

variable [Coefficient α] (d : Declaration)

theorem projects_addVariableAt (describe : Builder σ (VariableDecl α)) (b : Bindings) :
    Projects withoutLog (d.addVariableAt describe.traced b) (d.addVariableAt describe b) := by
  refine (describe.projects_traced b).onSecond.bind ?_
  intro decl
  refine (projects_ofExcept _ _).bind ?_
  intro info
  exact projects_onFirst Prod.snd _

variable [Zero α] [One α] [Neg α] [Add α] [Sub α] [Mul α]

theorem projects_addConstraintsAt (registry : Registry α) (describe : Builder σ (Relation α))
    (b : Bindings) :
    Projects withoutLog (d.addConstraintsAt registry describe.traced b)
      (d.addConstraintsAt registry describe b) := by
  refine (describe.projects_traced b).onSecond.bind ?_
  intro relation
  refine (projects_ofExcept _ _).bind ?_
  intro form
  refine (projects_ofExcept _ _).bind ?_
  intro group
  exact projects_addGroup _ group

end Declaration

end AlgebraicModel
