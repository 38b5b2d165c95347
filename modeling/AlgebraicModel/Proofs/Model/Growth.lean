import AlgebraicModel.Model.Basic
import AlgebraicModel.Proofs.Outcome

/-!
# Models only grow

What a model holds it keeps (`Model.Extends`): a reference goes on denoting the entry that it
denotes, and a registered name its object. Adding a variable or a constraint and registering a name
extend a model, and they keep its constraints on variables that it has (`Model.Evolves`). A
constraint is refused exactly when it refers to a variable that the model does not have, and a name
exactly when it is taken (`Model.fails_addConstraint_iff`, `Model.fails_registerName_iff`).
-/

set_option autoImplicit false

namespace AlgebraicModel

open Outcome

variable {α : Type}

namespace Model

variable {m m' m'' : Model α}

/-- The reference denotes a variable of the model. -/
def DenotesVariable (m : Model α) (v : VarRef) : Prop := ∃ e, variableEntry? m v = some e

/-- The reference denotes a constraint of the model. -/
def DenotesConstraint (m : Model α) (c : ConstraintRef) : Prop := ∃ e, constraintEntry? m c = some e

/-- Every constraint refers to variables of the model only. -/
def WellFormed (m : Model α) : Prop :=
  ∀ e ∈ m.constraints, ∀ v ∈ e.content.func.vars, m.DenotesVariable v

/-- All that a model holds, another holds as well, and under the same references and names. -/
structure Extends (m m' : Model α) : Prop where
  id : m'.id = m.id
  variableEntry : ∀ v e, variableEntry? m v = some e → variableEntry? m' v = some e
  constraintEntry : ∀ c e, constraintEntry? m c = some e → constraintEntry? m' c = some e
  lookup : ∀ n o, m.lookup? n = some o → m'.lookup? n = some o

/-- A model has come to hold more, its constraints still on variables that it has. -/
structure Evolves (m m' : Model α) : Prop extends m.Extends m' where
  wellFormed : m.WellFormed → m'.WellFormed

theorem denotesVariable_iff {v : VarRef} :
    m.DenotesVariable v ↔ v.model = m.id ∧ v.index < m.vars.size := by
  unfold DenotesVariable variableEntry?
  split
  · rename_i h
    simp [h, ← Option.isSome_iff_exists]
  · rename_i h
    simp [h]

theorem hasVariable_eq_false_iff {v : VarRef} :
    m.hasVariable v = false ↔ ¬ m.DenotesVariable v := by
  rw [denotesVariable_iff, hasVariable, Bool.and_eq_false_iff, beq_eq_false_iff_ne,
    decide_eq_false_iff_not]
  tauto

theorem DenotesVariable.extends (h : m.Extends m') {v : VarRef} (hv : m.DenotesVariable v) :
    m'.DenotesVariable v := by
  obtain ⟨e, he⟩ := hv
  exact ⟨e, h.variableEntry v e he⟩

theorem DenotesConstraint.extends (h : m.Extends m') {c : ConstraintRef}
    (hc : m.DenotesConstraint c) : m'.DenotesConstraint c := by
  obtain ⟨e, he⟩ := hc
  exact ⟨e, h.constraintEntry c e he⟩

/-! ## Growth is a preorder -/

theorem Extends.refl (m : Model α) : m.Extends m :=
  ⟨rfl, fun _ _ h => h, fun _ _ h => h, fun _ _ h => h⟩

theorem Extends.trans (h : m.Extends m') (h' : m'.Extends m'') : m.Extends m'' where
  id := h'.id.trans h.id
  variableEntry v e he := h'.variableEntry v e (h.variableEntry v e he)
  constraintEntry c e he := h'.constraintEntry c e (h.constraintEntry c e he)
  lookup n o ho := h'.lookup n o (h.lookup n o ho)

theorem Evolves.refl (m : Model α) : m.Evolves m := ⟨Extends.refl m, fun h => h⟩

theorem Evolves.trans (h : m.Evolves m') (h' : m'.Evolves m'') : m.Evolves m'' :=
  ⟨h.toExtends.trans h'.toExtends, fun hm => h'.wellFormed (h.wellFormed hm)⟩

/-! ## Variables -/

theorem getElem?_push_of_some {β : Type} {xs : Array β} {i : Nat} {x y : β} (h : xs[i]? = some x) :
    (xs.push y)[i]? = some x := by
  obtain ⟨hi, -⟩ := Array.getElem?_eq_some_iff.1 h
  rw [Array.getElem?_push, if_neg (by omega), h]

theorem extends_addVariable (m : Model α) (info : VariableInfo α) (name : Option Name) :
    m.Extends (m.addVariable info name).2 where
  id := rfl
  variableEntry v e he := by
    unfold variableEntry? at he ⊢
    split at he
    · rename_i hv
      exact (if_pos hv).trans (getElem?_push_of_some he)
    · cases he
  constraintEntry _ _ he := he
  lookup _ _ ho := ho

theorem evolves_addVariable (m : Model α) (info : VariableInfo α) (name : Option Name) :
    m.Evolves (m.addVariable info name).2 where
  toExtends := m.extends_addVariable info name
  wellFormed h e he v hv := (h e he v hv).extends (m.extends_addVariable info name)

/-- A new variable is denoted by the reference that is given back for it. -/
theorem variableEntry?_addVariable (m : Model α) (info : VariableInfo α) (name : Option Name) :
    variableEntry? (m.addVariable info name).2 (m.addVariable info name).1 =
      some ⟨info, m.keptName name⟩ := by
  have hid : (m.addVariable info name).1.model = (m.addVariable info name).2.id := rfl
  unfold variableEntry?
  rw [if_pos hid, fst_addVariable, vars_addVariable]
  exact Array.getElem?_push_size

/-! ## Constraints -/

/-- A constraint is refused for a variable that the model does not have, or it is added. -/
theorem addConstraint_cases (m : Model α) (c : Constraint α) (name : Option Name) :
    (∃ v ∈ c.func.vars, ¬ m.DenotesVariable v ∧
        m.addConstraint c name = .error (.foreignVariable v.index)) ∨
      (∀ v ∈ c.func.vars, m.DenotesVariable v) ∧
        m.addConstraint c name = .ok (⟨m.id, m.constraints.size⟩,
          { m with constraints := m.constraints.push ⟨c, m.keptName name⟩ }) := by
  unfold addConstraint
  split
  · rename_i v hfind
    have hv : m.hasVariable v = false := by simpa using List.find?_some hfind
    exact .inl ⟨v, List.mem_of_find?_eq_some hfind, hasVariable_eq_false_iff.1 hv, rfl⟩
  · rename_i hfind
    refine .inr ⟨fun v hv => ?_, rfl⟩
    by_contra hnot
    have hhas := List.find?_eq_none.1 hfind v hv
    simp [hasVariable_eq_false_iff.2 hnot] at hhas

/-- A constraint is refused exactly when it refers to a variable that the model does not have. -/
theorem fails_addConstraint_iff {c : Constraint α} {name : Option Name} :
    Fails (m.addConstraint c name) ↔ ∃ v ∈ c.func.vars, ¬ m.DenotesVariable v := by
  rcases m.addConstraint_cases c name with ⟨v, hv, hnot, herror⟩ | ⟨hall, hok⟩
  · exact iff_of_true ⟨_, herror⟩ ⟨v, hv, hnot⟩
  · rw [hok]
    refine iff_of_false (not_fails_ok _) ?_
    rintro ⟨v, hv, hnot⟩
    exact hnot (hall v hv)

theorem extends_pushConstraint (m : Model α) (e : Entry (Constraint α)) :
    m.Extends { m with constraints := m.constraints.push e } where
  id := rfl
  variableEntry _ _ he := he
  constraintEntry c e' he := by
    unfold constraintEntry? at he ⊢
    split at he
    · rename_i hc
      exact (if_pos hc).trans (getElem?_push_of_some he)
    · cases he
  lookup _ _ ho := ho

/-- A model with a further constraint, on variables that it has. -/
theorem evolves_pushConstraint {e : Entry (Constraint α)}
    (he : ∀ v ∈ e.content.func.vars, m.DenotesVariable v) :
    m.Evolves { m with constraints := m.constraints.push e } where
  toExtends := m.extends_pushConstraint e
  wellFormed h e' he' v hv := by
    refine DenotesVariable.extends (m.extends_pushConstraint e) ?_
    rcases Array.mem_push.1 he' with hold | rfl
    · exact h e' hold v hv
    · exact he v hv

/-- A new constraint is denoted by the reference that is given back for it. -/
theorem constraintEntry?_pushConstraint (m : Model α) (e : Entry (Constraint α)) :
    constraintEntry? { m with constraints := m.constraints.push e } ⟨m.id, m.constraints.size⟩ =
      some e := by
  unfold constraintEntry?
  rw [if_pos rfl]
  exact Array.getElem?_push_size

/-! ## Names -/

/-- A name is refused because it is taken, or it is registered. -/
theorem registerName_cases (m : Model α) (n : Name) (o : NamedObject) :
    (∃ o', m.lookup? n = some o') ∧ m.registerName n o = .error (.duplicateName n) ∨
      m.lookup? n = none ∧ m.registerName n o = .ok { m with names := (n, o) :: m.names } := by
  unfold registerName
  cases hn : m.lookup? n with
  | some o' => exact .inl ⟨⟨o', rfl⟩, rfl⟩
  | none => exact .inr ⟨rfl, rfl⟩

/-- A name is refused exactly when it is taken. -/
theorem fails_registerName_iff {n : Name} {o : NamedObject} :
    Fails (m.registerName n o) ↔ ∃ o', m.lookup? n = some o' := by
  rcases m.registerName_cases n o with ⟨htaken, herror⟩ | ⟨hfree, hok⟩
  · exact iff_of_true ⟨_, herror⟩ htaken
  · rw [hok, hfree]
    exact iff_of_false (not_fails_ok _) (by simp)

theorem lookup?_cons (m : Model α) (n n' : Name) (o : NamedObject) :
    lookup? { m with names := (n, o) :: m.names } n' =
      if n' = n then some o else m.lookup? n' := by
  by_cases h : n' = n
  · simp [lookup?, h]
  · rw [if_neg h, lookup?, List.lookup_cons, beq_eq_false_iff_ne.2 h]
    rfl

/-- A model with a further name, which was free. -/
theorem evolves_consName {n : Name} (hfree : m.lookup? n = none) (o : NamedObject) :
    m.Evolves { m with names := (n, o) :: m.names } where
  id := rfl
  variableEntry _ _ he := he
  constraintEntry _ _ he := he
  lookup n' o' ho := by
    rw [lookup?_cons, if_neg, ho]
    rintro rfl
    rw [hfree] at ho
    cases ho
  wellFormed h := h

end Model

end AlgebraicModel
