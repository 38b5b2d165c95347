import AlgebraicModel.Proofs.Constraint.Registry
import AlgebraicModel.Proofs.Model.Failures
import AlgebraicModel.Proofs.Model.Variables
import AlgebraicModel.Proofs.Population.Columns

/-!
# Positive semidefinite matrices of variables

Where the description of a symmetric matrix gives declarations that are accepted
(`Declaration.Accepts`), the matrix is built (`Declaration.exec_populateSymmetric_of_accepts`). Its
upper triangle, column by column, has as many variables as the cone asks for, as long as their
number can be computed on words. All of them belong to the model, so the standard registry and the
model accept the constraint (`Declaration.exec_addPsd`). Then only the name of the matrix can be
refused (`Declaration.psd_matrix_added`).
-/

set_option autoImplicit false

namespace AlgebraicModel

-- Powers of numbers are those of core, whichever other instances are in scope.
attribute [local instance (high)] instPowNat

open Outcome

variable {α σ : Type} [Coefficient α]

/-- Calls that all succeeded have their results for their outcome. -/
theorem Call.outcome_zipWith_ok {β : Type} (l : Label) {bs : List Bindings} {rs : List β}
    (h : bs.length = rs.length) :
    Call.outcome l (List.zipWith (fun b r => ⟨b, .ok r⟩) bs rs) = .ok rs := by
  induction bs generalizing rs with
  | nil =>
    obtain rfl := List.length_eq_zero_iff.mp h.symm
    rfl
  | cons b bs ih =>
    cases rs with
    | nil => cases h
    | cons r rs =>
      rw [List.zipWith_cons_cons, Call.outcome_cons_ok, ih (Nat.succ.inj h)]
      rfl

/-- The constraint that a matrix of side `n` is positive semidefinite whose upper triangle has the
variables `vs`, column by column. -/
def psdConstraint (n : Nat) (vs : List VarRef) : Constraint α :=
  ⟨.vectorOfVariables vs, .vector (.psdTriangle n)⟩

/-- A vector of variables is accepted for the cone of its length. -/
theorem Registry.build_standard_psdTriangle [Zero α] [One α] [Add α] [Sub α] (l : Label) {n : Nat}
    {vs : List VarRef} (hfits : n * (n + 1) < 2 ^ (64 : Nat)) (h : vs.length = n * (n + 1) / 2) :
    (standard : Registry α).build l (.array (vs.map .var)) (.vector (.psdTriangle n)) =
      .ok (psdConstraint n vs) := by
  have hcategory : (.array (vs.map .var) : Function α).category = .varVector := by
    simp [Function.category, Function.isVar]
  have hvars : (vs.map .var : List (Function α)).mapM Constraint.asVariable = .ok vs := by
    rw [mapM_eq_ok_iff, List.forall₂_map_left_iff, List.forall₂_same]
    intro v _
    rfl
  refine build_standard_eq_ok_iff.mpr ⟨Constraint.ofVariables, by rw [hcategory]; rfl, ?_⟩
  have hdimension : Constraint.checkDimension (α := α) (vs.map (Function.var (α := α))).length
      (.vector (.psdTriangle n)) = .ok () := by
    rw [List.length_map, h, ← VectorSet.dimension_psdTriangle hfits]
    exact if_pos rfl
  rw [Constraint.ofVariables, hdimension, hvars]
  rfl

omit [Coefficient α] in
/-- The references of variables that were appended to a model belong to it. -/
theorem Model.denotesVariable_of_appended {m m' : Model α} {count : Nat} (hid : m'.id = m.id)
    (hsize : m'.vars.size = m.vars.size + count) {v : VarRef}
    (hv : v ∈ (List.range' m.vars.size count).map (VarRef.mk m.id)) : m'.DenotesVariable v := by
  obtain ⟨i, hi, rfl⟩ := List.mem_map.mp hv
  rw [List.mem_range'_1] at hi
  have hbound : i < m'.vars.size := by omega
  exact Model.denotesVariable_iff.mpr ⟨hid.symm, hbound⟩

namespace Declaration

variable {d : Declaration} {describe : Builder σ (VariableDecl α)} {params : Params} {n : Nat}

/-- The description is asked at the bindings `bs`, one after the other, which takes the state of the
caller from `s` to `s'`, and the declarations that it gives are accepted. -/
inductive Accepts (d : Declaration) (describe : Builder σ (VariableDecl α)) :
    List Bindings → σ → List (VariableDecl α) → σ → Prop where
  | nil (s : σ) : Accepts d describe [] s [] s
  | cons {b : Bindings} {bs : List Bindings} {decl : VariableDecl α} {info : VariableInfo α}
      {decls : List (VariableDecl α)} {s s' s'' : σ}
      (hdescribe : (describe b).exec s = (.ok decl, s'))
      (hresolve : decl.resolve d.variableLabel = .ok info)
      (hrest : Accepts d describe bs s' decls s'') :
      Accepts d describe (b :: bs) s (decl :: decls) s''

theorem Accepts.length_eq {bs : List Bindings} {decls : List (VariableDecl α)} {s s' : σ}
    (h : d.Accepts describe bs s decls s') : bs.length = decls.length := by
  induction h with
  | nil => rfl
  | cons _ _ _ ih => exact congrArg (· + 1) ih

/-- Every accepted declaration is one step of the model. -/
theorem Accepts.exists_steps {bs : List Bindings} {decls : List (VariableDecl α)} {s s' : σ}
    (h : d.Accepts describe bs s decls s') (m : Model α) :
    ∃ vs m', bs.length = vs.length ∧ Steps d.VariableStep bs decls vs m m' ∧
      (d.addVariableAt describe).runAll bs (m, s) =
        (List.zipWith (fun b v => ⟨b, .ok v⟩) bs vs, (m', s')) := by
  induction h generalizing m with
  | nil s => exact ⟨[], m, rfl, .nil m, rfl⟩
  | @cons b bs decl info decls s s' s'' hdescribe hresolve _ ih =>
    obtain ⟨vs, m', hlength, hsteps, hrun⟩ := ih (m.addVariable info (d.elementName b.key)).2
    refine ⟨⟨m.id, m.vars.size⟩ :: vs, m', congrArg (· + 1) hlength,
      .cons ⟨info, hresolve, rfl, rfl⟩ hsteps, ?_⟩
    have hexec := d.exec_addVariableAt describe b m s
    rw [hdescribe] at hexec
    simp only [hresolve] at hexec
    rw [Builder.runAll, hexec]
    simp only [hrun, List.zipWith_cons_cons]

/-- A symmetric matrix whose declarations are accepted is built. -/
theorem exec_populateSymmetric_of_accepts [Closeness]
    (hsize : d.symmetricSize d.variableLabel params = .ok n)
    {decls : List (VariableDecl α)} {s s' : σ}
    (haccepts : d.Accepts describe (d.upperBindings params n) s decls s') (m : Model α) :
    ∃ vs m', (d.upperBindings params n).length = vs.length ∧
      Steps d.VariableStep (d.upperBindings params n) decls vs m m' ∧
      (d.populateSymmetric d.variableLabel params (d.addVariableAt describe)).exec (m, s) =
        (.ok (.dense (reflect n vs)), (m', s')) := by
  obtain ⟨vs, m', hlength, hsteps, hrun⟩ := haccepts.exists_steps m
  refine ⟨vs, m', hlength, hsteps, ?_⟩
  rw [exec_populateSymmetric, hsize]
  simp only [hrun, Call.outcome_zipWith_ok _ hlength]
  rfl

/-- A matrix that is built and whose constraint is added is registered, where its name is free. -/
theorem exec_addSymmetricVariables_of_free [Closeness] {registry : Registry α} {psd : Bool}
    {matrix : Container (Shared VarRef)} {r : Option ConstraintRef} {m m₁ m₂ : Model α}
    {s s₁ s₂ : σ}
    (hmatrix : (d.populateSymmetric d.variableLabel params (d.addVariableAt describe)).exec (m, s) =
      (.ok matrix, (m₁, s₁)))
    (hpsd : (d.addPsd registry psd matrix).exec (m₁, s₁) = (.ok r, (m₂, s₂)))
    (hfree : ∀ n ∈ d.name, m₂.lookup? n = none) :
    (d.addSymmetricVariables registry params psd describe).exec (m, s) =
      (.ok ⟨matrix, r⟩,
        (m₂.named d.name (.vars (matrix.upperTriangle.map (·.value))), s₂)) := by
  rw [addSymmetricVariables_eq, BuildM.exec_bind, hmatrix]
  dsimp only
  rw [BuildM.exec_bind, hpsd]
  dsimp only
  rcases Model.exec_pushName d.variableLabel d.name
      (.vars (matrix.upperTriangle.map (·.value))) m₂ s₂ with ⟨n, hn, ⟨o, ho⟩, -⟩ | ⟨-, hname⟩
  · rw [hfree n hn] at ho
    cases ho
  · rw [BuildM.exec_bind, hname]
    rfl

variable [Zero α] [One α] [Add α] [Sub α]

/-- The constraint of a matrix is added where its upper triangle has the dimension of the cone and
belongs to the model. -/
theorem exec_addPsd {matrix : Container (Shared VarRef)} {m : Model α} (hside : matrix.side = n)
    (hfits : n * (n + 1) < 2 ^ (64 : Nat))
    (hlength : (matrix.upperTriangle.map (·.value)).length = n * (n + 1) / 2)
    (hdenotes : ∀ x ∈ matrix.upperTriangle, m.DenotesVariable x.value) (s : σ) :
    (d.addPsd .standard true matrix).exec (m, s) =
      (.ok (some ⟨m.id, m.constraints.size⟩),
        ({ m with constraints :=
            m.constraints.push ⟨psdConstraint n (matrix.upperTriangle.map (·.value)), none⟩ },
          s)) := by
  have hbuild := Registry.build_standard_psdTriangle (α := α) d.variableLabel hfits hlength
  rw [addPsd, if_pos rfl, map_eq_pure_bind, BuildM.exec_bind, addPsdConstraint,
    BuildM.exec_ofExcept_bind, hside, hbuild]
  dsimp only
  rw [BuildM.exec_labelled]
  rcases m.addConstraint_cases (psdConstraint n (matrix.upperTriangle.map (·.value))) none with
    ⟨v, hv, hforeign, -⟩ | ⟨-, hok⟩
  · obtain ⟨x, hx, rfl⟩ := List.mem_map.mp hv
    exact absurd (hdenotes x hx) hforeign
  · have hname : m.keptName none = none := by simp [Model.keptName]
    rw [Model.exec_pushConstraint_of_ok hok, hname]
    rfl

/-- A positive semidefinite matrix whose declarations are accepted is refused for its name only. Its
variables, one for each entry on and above the diagonal, are appended row by row, and after them the
one constraint on all of them, column by column, which has the dimension of its cone for every side
with `n * (n + 1)` in range. The name of the matrix, if it has one and this is free, stands for the
variables in that order. -/
theorem psd_matrix_added [Closeness] (hsize : d.symmetricSize d.variableLabel params = .ok n)
    (hfits : n * (n + 1) < 2 ^ (64 : Nat)) {decls : List (VariableDecl α)} {s s' : σ}
    (haccepts : d.Accepts describe (d.upperBindings params n) s decls s') (m : Model α) :
    ∃ matrix infos vs m₁,
      List.Forall₂ (fun decl info => decl.resolve d.variableLabel = .ok info) decls infos ∧
      m₁ = { m with
        vars := m.vars ++ (List.zipWith (fun b info => ⟨info, m.keptName (d.elementName b.key)⟩)
          (d.upperBindings params n) infos).toArray,
        constraints := m.constraints.push ⟨psdConstraint n vs, none⟩ } ∧
      m₁.vars.size = m.vars.size + n * (n + 1) / 2 ∧
      vs.length = n * (n + 1) / 2 ∧ (VectorSet.psdTriangle n).dimension = vs.length ∧
      (∀ i j, 1 ≤ i → i ≤ j → j ≤ n → ∃ k, (upperEntries n)[k]? = some (i, j) ∧
        matrix.get? (entryKey i j) = some ⟨k, ⟨m.id, m.vars.size + k⟩⟩ ∧
        vs[j * (j - 1) / 2 + i - 1]? = some ⟨m.id, m.vars.size + k⟩) ∧
      ((∀ name ∈ d.name, m.lookup? name = none) →
        (d.addSymmetricVariables .standard params true describe).exec (m, s) =
          (.ok ⟨matrix, some ⟨m.id, m.constraints.size⟩⟩, (m₁.named d.name (.vars vs), s')) ∧
        Model.Registers d.name (.vars vs) m (m₁.named d.name (.vars vs))) ∧
      ∀ name o, d.name = some name → m.lookup? name = some o →
        (d.addSymmetricVariables .standard params true describe).exec (m, s) =
          (.error (d.variableLabel.report (ModelError.duplicateName name)), (m₁, s')) := by
  have hsymmetric := symmetricSize_eq_ok_iff.mp hsize
  obtain ⟨row, column, hindices, hrow, hcolumn⟩ := hsymmetric.sides
  obtain ⟨a, -, ha⟩ := evalSet_of_hasSide hrow
  obtain ⟨b, -, hb⟩ := evalSet_of_hasSide hcolumn
  obtain ⟨refs, m₀, hlength, hsteps, hpopulate⟩ :=
    exec_populateSymmetric_of_accepts hsize haccepts m
  obtain ⟨infos, hinfos, hrefs, hm₀⟩ := appended_of_steps hsteps
  rw [List.zipWith_map_left] at hm₀
  have hcount : (d.upperBindings params n).length = n * (n + 1) / 2 := by
    rw [upperBindings_eq hindices, List.length_map, length_upperEntries]
  have hupper : refs.length = (upperCells n).length := by
    rw [← hlength, hcount, length_upperCells]
  have hvs : ((Container.dense (reflect n refs)).upperTriangle.map (·.value)).length =
      n * (n + 1) / 2 := by
    rw [List.length_map, length_upperTriangle_reflect ha hb hupper]
  have hid : m₀.id = m.id := by rw [hm₀]
  have hsize₀ : m₀.vars.size = m.vars.size + (d.upperBindings params n).length := by
    have hentries := haccepts.length_eq.trans hinfos.length_eq
    rw [hm₀]
    simp [← hentries]
  have hpsd := exec_addPsd (d := d) (n := n) rfl hfits hvs
    (fun x hx => Model.denotesVariable_of_appended hid hsize₀
      (hrefs ▸ value_mem_of_mem_upperTriangle ha hb hupper hx)) s'
  -- from here on `m₀` is written as `m` with the new variables
  subst hm₀
  refine ⟨.dense (reflect n refs), infos, _, _, hinfos, rfl, ?_, hvs,
    (VectorSet.dimension_psdTriangle hfits).trans hvs.symm, ?_, ?_, ?_⟩
  · rw [← hcount]
    exact hsize₀
  · intro i j hi hij hj
    obtain ⟨k, hk, hentry, hplace⟩ := exists_place_of_entry ha hb hupper hi hij hj
    refine ⟨k, hentry, hplace _ ?_⟩
    rw [hrefs, List.getElem?_map, List.getElem?_range' (hlength ▸ hk), Nat.one_mul, Option.map_some]
  · intro hfree
    refine ⟨exec_addSymmetricVariables_of_free hpopulate hpsd hfree, ?_⟩
    apply Model.registers_named (m := m)
    · rfl
    · exact hfree
  · intro name o hname ho
    exact exec_addSymmetricVariables_of_taken hpopulate hpsd hname ho

/-- A matrix of side `3` in an empty model. The last entry of its first row is appended before the
second row, and comes after the second column in the constraint and under the name. -/
theorem psd_matrix_added_of_side_three :
    let index (n : String) : IndexSet := ⟨⟨n⟩, .oneTo (.var ⟨"N"⟩)⟩
    let d : Declaration := ⟨some ⟨"P"⟩, [index "i", index "j"], none, .auto⟩
    let params : Params := ⟨[(⟨"N"⟩, .scalar (.int 3))]⟩
    let describe : Builder Unit (VariableDecl Float) := fun _ => pure .free
    ∃ matrix vs m, (d.addSymmetricVariables .standard params true describe).exec
          (.empty 7 true, ()) = (.ok ⟨matrix, some ⟨7, 0⟩⟩, (m, ())) ∧
      m.vars.size = 6 ∧ m.constraints = #[⟨psdConstraint 3 vs, none⟩] ∧
      m.lookup? ⟨"P"⟩ = some (.vars vs) ∧ vs.length = 6 ∧
      matrix.get? (entryKey 1 3) = some ⟨2, ⟨7, 2⟩⟩ ∧ vs[3]? = some ⟨7, 2⟩ := by
  intro index d params describe
  have hside (n : String) : (index n).HasSide params 3 := ⟨_, _, 3, rfl, rfl, rfl, rfl⟩
  have hsize : d.symmetricSize d.variableLabel params = .ok 3 :=
    symmetricSize_eq_ok_iff.mpr ⟨rfl, ⟨_, _, rfl, hside "i", hside "j"⟩, by decide, .inl rfl⟩
  have haccepts (bs : List Bindings) :
      d.Accepts describe bs () (bs.map fun _ => (.free : VariableDecl Float)) () := by
    induction bs with
    | nil => exact .nil ()
    | cons b bs ih => exact .cons rfl rfl ih
  obtain ⟨matrix, infos, vs, m, -, hm, hvars, hlength, -, hplaces, hfree, -⟩ :=
    psd_matrix_added hsize (by decide) (haccepts _) (.empty 7 true)
  obtain ⟨hrun, hregisters⟩ := hfree fun _ _ => rfl
  obtain ⟨k, hk, hget, hplace⟩ := hplaces 1 3 (by decide) (by decide) (by decide)
  have hk : k = 2 := by
    have hbound : k < 6 := (List.getElem?_eq_some_iff.mp hk).1
    interval_cases k
    all_goals first | rfl | cases hk
  rw [hk] at hget hplace
  refine ⟨matrix, vs, m.named d.name (.vars vs), hrun, ?_, ?_, hregisters.registered _ rfl, hlength,
    hget, hplace⟩
  · exact hvars
  · rw [hm]
    rfl

end Declaration

end AlgebraicModel
