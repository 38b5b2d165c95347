import AlgebraicModel.Proofs.Container.Repetition
import AlgebraicModel.Proofs.Expr.Failures
import AlgebraicModel.Proofs.Population.ChecksFirst
import AlgebraicModel.Proofs.Population.MapTwin

/-!
# Where the errors of a population come from

A population fails over its keys, or because a call for an element failed. What can be wrong with
the keys of a plan and with a symmetric matrix is listed here together with the error that it is,
before a label is put on it (`Plan.KeyFailure`, `Declaration.SymmetricFailure`). None of these
errors begins like a label, and the population ends with the error under the label
(`Plan.error_cases_of_populate`, `Declaration.error_cases_of_populateSymmetric`).
-/

set_option autoImplicit false

namespace AlgebraicModel

variable {σ α : Type}

/-! ## Messages -/

instance : Cause.Plain PlanError where
  beginsPlain c := by
    change Label.BeginsPlain c.message
    unfold PlanError.message
    cases c
    all_goals
      repeat' with_reducible apply Label.BeginsPlain.append
      exact Label.beginsPlain_ofList _ (by decide)

instance : Cause.Plain SymmetricError where
  beginsPlain c := by
    change Label.BeginsPlain c.message
    unfold SymmetricError.message
    cases c
    all_goals
      repeat' with_reducible apply Label.BeginsPlain.append
      exact Label.beginsPlain_ofList _ (by decide)

/-- The error for an element that occurs twice, without a label. -/
def Error.repeatedIndex (element : String) : Error :=
  ⟨.duplicateKey, .repeatedIndex,
    some ("repeated index " ++ element ++ "; index values must be unique")⟩

theorem Error.not_isLabelled_repeatedIndex (element : String) :
    ¬ (repeatedIndex element).IsLabelled := by
  rintro ⟨d, hd, hlabelled⟩
  cases hd
  have hplain : Label.BeginsPlain
      ("repeated index " ++ element ++ "; index values must be unique") :=
    ((Label.beginsPlain_ofList _ (by decide)).append _).append _
  rw [hplain.isLabelled_eq_false] at hlabelled
  cases hlabelled

theorem Label.repeatedIndex_eq_attach (l : Label) (element : String) :
    l.repeatedIndex element = l.attach (.repeatedIndex element) :=
  (l.attach_of_not_isLabelled (Error.not_isLabelled_repeatedIndex element)).symm

/-! ## Calls that fail -/

/-- If the elements could not be built, it is because of a call, which was the last. -/
theorem Builder.exists_failing_call {build : Builder σ α} {l : Label} {bs : List Bindings} {s : σ}
    {e : Error} (h : Call.outcome l (build.runAll bs s).1 = .error e) :
    ∃ b s₁ o, (build b).exec s₁ = (.error o, (build.runAll bs s).2) ∧ e = l.attach o := by
  induction bs generalizing s with
  | nil => cases h
  | cons b bs ih =>
    rw [runAll] at h ⊢
    obtain ⟨⟨r, s'⟩, hexec⟩ : ∃ out, (build b).exec s = out := ⟨_, rfl⟩
    rw [hexec] at h ⊢
    cases r with
    | error o =>
      dsimp only at h ⊢
      rw [Call.outcome_cons_error] at h
      cases h
      exact ⟨b, s, o, hexec, rfl⟩
    | ok a =>
      -- the first call gave an element, so it is one of the others
      dsimp only at h ⊢
      rw [Call.outcome_cons_ok] at h
      cases hrest : Call.outcome l (build.runAll bs s').1 with
      | ok as =>
        rw [hrest] at h
        cases h
      | error e' =>
        rw [hrest] at h
        cases h
        exact ih hrest

/-! ## Keys of a plan -/

namespace Plan

variable [Closeness]

/-- What can be wrong with the keys of a plan, and the error that it is. -/
inductive KeyFailure (p : Plan) (params : Params) : Error → Prop
  /-- An index set of an array cannot be evaluated. -/
  | sets {e : EvalError} (harray : p.IsArray) (h : p.declaration.evalAxes params = .error e) :
      KeyFailure p params (.ofCause e)
  /-- An element of an axis is equal to an earlier one. -/
  | element {sets : List (List IndexValue)} {name : Name} {vs : List IndexValue} {v : IndexValue}
      (haxis : p.representation = .axis) (hsets : p.declaration.evalAxes params = .ok sets)
      (hmem : (name, vs) ∈ p.declaration.indexNames.zip sets)
      (h : FirstRepeat IndexValue.compare vs v) :
      KeyFailure p params (.repeatedIndex (v.text ++ " in index `" ++ name.text ++ "`"))
  /-- A nested index set or the condition cannot be evaluated. -/
  | keys {e : EvalError} (hmap : p.representation = .map)
      (h : p.declaration.enumerateKeys params = .error e) : KeyFailure p params (.ofCause e)
  /-- A key is equal to an earlier one. -/
  | key {ks : List Key} {k : Key} (hmap : p.representation = .map)
      (hkeys : p.declaration.enumerateKeys params = .ok ks) (h : FirstRepeat Key.compare ks k) :
      KeyFailure p params (.repeatedIndex (p.declaration.label ++ "[" ++ k.text ++ "]"))

theorem KeyFailure.not_isLabelled {p : Plan} {params : Params} {o : Error}
    (h : p.KeyFailure params o) : ¬ o.IsLabelled := by
  cases h with
  | sets _ h => exact (p.declaration.raises_evalAxes params _ h).not_isLabelled
  | element => exact Error.not_isLabelled_repeatedIndex _
  | keys _ h => exact (p.declaration.raises_enumerateKeys params _ h).not_isLabelled
  | key => exact Error.not_isLabelled_repeatedIndex _

theorem exists_keyFailure_of_layout {p : Plan} {l : Label} {params : Params} {e : Error}
    (h : p.layout α l params = .error e) : ∃ o, p.KeyFailure params o ∧ e = l.attach o := by
  rw [layout] at h
  cases hr : p.representation with
  | scalar =>
    rw [hr] at h
    cases h
  | dense =>
    rw [hr] at h
    rcases Outcome.bind_eq_error_iff.mp h with h | ⟨sets, -, h⟩
    · obtain ⟨c, hc, rfl⟩ := Outcome.mapError_eq_error_iff.mp h
      exact ⟨_, .sets (.inl hr) hc, rfl⟩
    · cases h
  | axis =>
    rw [hr] at h
    rcases Outcome.bind_eq_error_iff.mp h with h | ⟨sets, hsets, h⟩
    · obtain ⟨c, hc, rfl⟩ := Outcome.mapError_eq_error_iff.mp h
      exact ⟨_, .sets (.inr hr) hc, rfl⟩
    rcases Outcome.bind_eq_error_iff.mp h with h | ⟨axes, -, h⟩
    · -- one of the sets has an element twice
      obtain ⟨⟨name, vs⟩, hmem, h⟩ := Outcome.exists_of_mapM_eq_error h
      obtain ⟨v, hv, rfl⟩ := Outcome.mapError_eq_error_iff.mp h
      exact ⟨_, .element hr (Outcome.mapError_eq_ok_iff.mp hsets) hmem
        (Axis.ofList_eq_error_iff.mp hv), l.repeatedIndex_eq_attach _⟩
    · cases h
  | map =>
    rw [hr] at h
    rcases Outcome.bind_eq_error_iff.mp h with h | ⟨ks, -, h⟩
    · rw [distinctKeys] at h
      rcases Outcome.bind_eq_error_iff.mp h with h | ⟨ks, hks, h⟩
      · obtain ⟨c, hc, rfl⟩ := Outcome.mapError_eq_error_iff.mp h
        exact ⟨_, .keys hr hc, rfl⟩
      · cases hrepeat : Key.firstRepeat? ks with
        | none =>
          rw [hrepeat] at h
          cases h
        | some k =>
          rw [hrepeat] at h
          cases h
          exact ⟨_, .key hr (Outcome.mapError_eq_ok_iff.mp hks)
            (Key.firstRepeat?_eq_some_iff.mp hrepeat), l.repeatedIndex_eq_attach _⟩
    · cases h

/-- A population ends with what is wrong with its keys, or with the failure of a call. -/
theorem error_cases_of_populate {p : Plan} {l : Label} {params : Params} {build : Builder σ α}
    {s s' : σ} {e : Error} (h : (p.populate l params build).exec s = (.error e, s')) :
    (∃ o, p.KeyFailure params o ∧ e = l.attach o) ∨
      ∃ b s₁ o, (build b).exec s₁ = (.error o, s') ∧ e = l.attach o := by
  rw [exec_populate] at h
  cases hlayout : p.layout α l params with
  | error e' =>
    rw [hlayout] at h
    cases h
    exact .inl (exists_keyFailure_of_layout hlayout)
  | ok found =>
    rw [hlayout] at h
    obtain ⟨hout, rfl⟩ := Prod.mk.inj h
    exact .inr (Builder.exists_failing_call (Outcome.map_eq_error_iff.mp hout))

end Plan

/-! ## Symmetric matrices -/

namespace Declaration

variable [Closeness]

/-- What can keep a declaration from being that of a symmetric matrix, and the error that it is. -/
inductive SymmetricFailure (d : Declaration) (params : Params) : Error → Prop
  | conditional (h : d.filter.isSome = true) :
      SymmetricFailure d params (.ofCause SymmetricError.conditional)
  | notTwoIndices (h : d.indices.length ≠ 2) :
      SymmetricFailure d params (.ofCause (SymmetricError.notTwoIndices d.indices.length))
  | dependentSets {set var : IndexSet} (h : d.dependency? = some (set, var)) :
      SymmetricFailure d params (.ofCause (SymmetricError.dependentSets set var))
  | notOneBased {i : IndexSet} (hi : i ∈ d.indices) (h : i.set.oneBasedUpper? = none) :
      SymmetricFailure d params (.ofCause (SymmetricError.notOneBased i))
  /-- The upper end of a side cannot be evaluated. -/
  | side {i : IndexSet} {upper : Expr} {e : EvalError} (hi : i ∈ d.indices)
      (hupper : i.set.oneBasedUpper? = some upper)
      (h : (Bindings.ofParams params).evalScalar upper = .error e) :
      SymmetricFailure d params (.ofCause e)
  | sizeNotInteger {i : IndexSet} {upper : Expr} {v : IndexValue} (hi : i ∈ d.indices)
      (hupper : i.set.oneBasedUpper? = some upper)
      (hv : (Bindings.ofParams params).evalScalar upper = .ok v) (h : v.int? = none) :
      SymmetricFailure d params (.ofCause (SymmetricError.sizeNotInteger v))
  | notSquare {row column : IndexSet} {rows columns : Nat} (hindices : d.indices = [row, column])
      (hrows : row.HasSide params rows) (hcolumns : column.HasSide params columns)
      (h : rows ≠ columns) :
      SymmetricFailure d params (.ofCause (SymmetricError.notSquare rows columns))
  | unsupportedKind (h : d.kind ≠ .auto ∧ d.kind ≠ .dense) :
      SymmetricFailure d params (.ofCause (SymmetricError.unsupportedKind d.kind))

variable {d : Declaration} {l : Label} {params : Params} {e : Error}

theorem SymmetricFailure.not_isLabelled {o : Error} (h : d.SymmetricFailure params o) :
    ¬ o.IsLabelled := by
  cases h with
  | side _ _ h => exact ((Bindings.ofParams params).raises_evalScalar _ _ h).not_isLabelled
  | _ => exact Label.not_isLabelled_ofCause _

theorem exists_symmetricFailure_of_sideLength {i : IndexSet} (hi : i ∈ d.indices)
    (h : sideLength l params i = .error e) : ∃ o, d.SymmetricFailure params o ∧ e = l.attach o := by
  rw [sideLength] at h
  cases hupper : i.set.oneBasedUpper? with
  | none =>
    rw [hupper] at h
    cases h
    exact ⟨_, .notOneBased hi hupper, l.report_eq_attach _⟩
  | some upper =>
    rw [hupper] at h
    rcases Outcome.bind_eq_error_iff.mp h with h | ⟨v, hv, h⟩
    · obtain ⟨c, hc, rfl⟩ := Outcome.mapError_eq_error_iff.mp h
      exact ⟨_, .side hi hupper hc, rfl⟩
    · cases hint : v.int? with
      | none =>
        rw [hint] at h
        cases h
        exact ⟨_, .sizeNotInteger hi hupper (Outcome.mapError_eq_ok_iff.mp hv) hint,
          l.report_eq_attach _⟩
      | some n =>
        rw [hint] at h
        cases h

theorem exists_symmetricFailure_of_symmetricSize (h : d.symmetricSize l params = .error e) :
    ∃ o, d.SymmetricFailure params o ∧ e = l.attach o := by
  unfold symmetricSize at h
  cases hfilter : d.filter with
  | some condition =>
    rw [hfilter] at h
    cases h
    exact ⟨_, .conditional (by rw [hfilter]; rfl), l.report_eq_attach _⟩
  | none =>
    simp only [hfilter, Option.isSome_none, Bool.false_eq_true, if_false] at h
    split at h
    · rename_i row column hindices
      have hrow : row ∈ d.indices := by simp [hindices]
      have hcolumn : column ∈ d.indices := by simp [hindices]
      cases hdep : d.dependency? with
      | some found =>
        rw [hdep] at h
        cases h
        exact ⟨_, .dependentSets hdep, l.report_eq_attach _⟩
      | none =>
        rw [hdep] at h
        rcases Outcome.bind_eq_error_iff.mp h with h | ⟨rows, hrows, h⟩
        · exact exists_symmetricFailure_of_sideLength hrow h
        rcases Outcome.bind_eq_error_iff.mp h with h | ⟨columns, hcolumns, h⟩
        · exact exists_symmetricFailure_of_sideLength hcolumn h
        split at h
        · rename_i hne
          cases h
          exact ⟨_, .notSquare hindices (sideLength_eq_ok_iff.mp hrows)
            (sideLength_eq_ok_iff.mp hcolumns) hne, l.report_eq_attach _⟩
        · -- a square, but not of a kind that allows it
          split at h
          · cases h
          · cases h
          · rename_i hauto hdense
            cases h
            exact ⟨_, .unsupportedKind ⟨hauto, hdense⟩, l.report_eq_attach _⟩
    · rename_i hindices
      cases h
      refine ⟨_, .notTwoIndices ?_, l.report_eq_attach _⟩
      intro hlength
      obtain ⟨row, column, hrow⟩ := List.length_eq_two.mp hlength
      exact hindices row column hrow

/-- A symmetric matrix ends with what is wrong with its declaration, or with the failure of a
call. -/
theorem error_cases_of_populateSymmetric {build : Builder σ α} {s s' : σ}
    (h : (d.populateSymmetric l params build).exec s = (.error e, s')) :
    (∃ o, d.SymmetricFailure params o ∧ e = l.attach o) ∨
      ∃ b s₁ o, (build b).exec s₁ = (.error o, s') ∧ e = l.attach o := by
  rw [exec_populateSymmetric] at h
  cases hsize : d.symmetricSize l params with
  | error e' =>
    rw [hsize] at h
    cases h
    exact .inl (exists_symmetricFailure_of_symmetricSize hsize)
  | ok n =>
    rw [hsize] at h
    obtain ⟨hout, rfl⟩ := Prod.mk.inj h
    exact .inr (Builder.exists_failing_call (Outcome.map_eq_error_iff.mp hout))

end Declaration

end AlgebraicModel
