import AlgebraicModel.Constraint.Registry
import AlgebraicModel.Proofs.Label
import AlgebraicModel.Proofs.Outcome

/-!
# Where the errors of building constraints come from

A registry fails over a function and a set because it has no builder for them, or because the
builder fails. A standard builder words its failure without a label; a builder that the caller has
registered may put one in front, and then it stays (`Registry.BuildFailure`). Over a canonical form
a registry fails for one of the functions that the form asks it to hold in a set
(`CanonicalForm.Asks`), or because the form cannot be taken apart (`Registry.FormFailure`): it
broadcasts into a set of vectors, or lacks one of the bounds that are looked up
(`CanonicalForm.LooksUp`, `Registry.buildForm_eq_error_cases`).
-/

set_option autoImplicit false

namespace AlgebraicModel

variable {α : Type}

/-! ## Messages -/

instance [Coefficient α] : Cause.Plain (DispatchError α) where
  beginsPlain c := by
    change Label.BeginsPlain c.message
    unfold DispatchError.message
    cases c
    all_goals
      repeat' with_reducible apply Label.BeginsPlain.append
      exact Label.beginsPlain_ofList _ (by decide)

instance : Cause.Plain RelationError where
  beginsPlain c := by
    change Label.BeginsPlain c.message
    unfold RelationError.message
    cases c
    all_goals
      repeat' with_reducible apply Label.BeginsPlain.append
      exact Label.beginsPlain_ofList _ (by decide)

/-! ## Functions in sets -/

section Building

variable [Coefficient α] [Zero α] [One α] [Add α] [Sub α]

namespace Registry

/-- Why a registry does not build a function in a set, who says so, and the error that it is. -/
inductive BuildFailure (r : Registry α) (l : Label) (f : Function α) (s : ConstraintSet α) :
    Author → Error → Prop
  | noBuilder (h : r.builder? f.category s.category = none) :
      BuildFailure r l f s .compiler (.ofCause (DispatchError.noBuilder f.category s))
  /-- The standard builder of the pairing fails. -/
  | standard {way : Function α → ConstraintSet α → Except (DispatchError α) (Constraint α)}
      {e : DispatchError α} (hway : Constraint.standard? f.category s.category = some way)
      (h : r.builder? f.category s.category = some (unlabelled way)) (he : way f s = .error e) :
      BuildFailure r l f s .compiler (.ofCause e)
  /-- A builder of the caller's own fails. -/
  | custom {b : ConstraintBuilder α} {o : Error} (h : r.builder? f.category s.category = some b)
      (hcustom : ∀ way, Constraint.standard? f.category s.category = some way → b ≠ unlabelled way)
      (ho : b l f s = .error o) : BuildFailure r l f s .caller o

variable {r : Registry α} {l : Label} {f : Function α} {s : ConstraintSet α} {e : Error}

theorem BuildFailure.not_isLabelled {o : Error} (h : r.BuildFailure l f s .compiler o) :
    ¬ o.IsLabelled := by
  cases h with
  | noBuilder => exact Label.not_isLabelled_ofCause _
  | standard => exact Label.not_isLabelled_ofCause _

theorem exists_buildFailure (h : r.build l f s = .error e) :
    ∃ author o, r.BuildFailure l f s author o ∧ e = l.attach o := by
  rw [build] at h
  cases hb : r.builder? f.category s.category with
  | none =>
    rw [hb] at h
    cases h
    exact ⟨_, _, .noBuilder hb, l.report_eq_attach _⟩
  | some b =>
    rw [hb] at h
    obtain ⟨o, ho, rfl⟩ := Outcome.mapError_eq_error_iff.mp h
    -- a builder that is the standard one of its pairing does not see the label
    by_cases hstandard : ∃ way, Constraint.standard? f.category s.category = some way ∧
        b = unlabelled way
    · obtain ⟨way, hway, rfl⟩ := hstandard
      obtain ⟨c, hc, rfl⟩ := Outcome.mapError_eq_error_iff.mp ho
      exact ⟨_, _, .standard hway hb hc, rfl⟩
    · refine ⟨_, o, .custom hb ?_ ho, rfl⟩
      intro way hway heq
      exact hstandard ⟨way, hway, heq⟩

end Registry

/-! ## Canonical forms -/

/-- The form asks for a constraint that holds the function in the set: the function of the form as
a whole, or an element of a broadcast with its constant taken over into the set. -/
inductive CanonicalForm.Asks : CanonicalForm α → Function α → ConstraintSet α → Prop
  | whole {f : Function α} {s : ConstraintSet α} {broadcast : Bool} :
      Asks (.membership f s broadcast) f s
  | element {fs : List (Function α)} {f : Function α} {s : ScalarSet α} (hf : f ∈ fs) :
      Asks (.membership (.array fs) (.scalar s) true) (f.relocate s).1 (.scalar (f.relocate s).2)
  | between {lb ub : Bound α} {f : Function α} {broadcast : Bool} {lower upper : α}
      (hlower : lb.at? 0 = some lower) (hupper : ub.at? 0 = some upper) :
      Asks (.ranged lb f ub broadcast) f (.scalar (.interval lower upper))
  | elementBetween {lb ub : Bound α} {fs : List (Function α)} {f : Function α} {i : Nat}
      {lower upper : α} (hf : fs[i]? = some f) (hlower : lb.at? i = some lower)
      (hupper : ub.at? i = some upper) :
      Asks (.ranged lb (.array fs) ub true) (f.relocate (.interval lower upper)).1
        (.scalar (f.relocate (.interval lower upper)).2)

/-- The bounds of element `i` are looked up when the form is built: those of every element of a
broadcast, and those of the first one where the form is built as a whole. -/
inductive CanonicalForm.LooksUp : CanonicalForm α → Bound α → Bound α → Nat → Prop
  | element {lb ub : Bound α} {fs : List (Function α)} {i : Nat} (hi : i < fs.length) :
      LooksUp (.ranged lb (.array fs) ub true) lb ub i
  | whole {lb ub : Bound α} {f : Function α} {broadcast : Bool}
      (hwhole : f.isArray = true → broadcast = false) : LooksUp (.ranged lb f ub broadcast) lb ub 0

namespace Registry

/-- Why a registry does not build a canonical form, who says so, and the error that it is. -/
inductive FormFailure (r : Registry α) (l : Label) : CanonicalForm α → Author → Error → Prop
  | vectorBroadcast {f : Function α} {s : VectorSet} :
      FormFailure r l (.membership f (.vector s) true) .compiler
        (.ofCause (DispatchError.vectorBroadcast (.vector s) : DispatchError α))
  | noBound {lb ub : Bound α} {f : Function α} {broadcast : Bool} {i : Nat}
      (h : lb.at? i = none ∨ ub.at? i = none) :
      FormFailure r l (.ranged lb f ub broadcast) .compiler
        (.ofCause (DispatchError.noBound (i + 1) : DispatchError α))
  | build {form : CanonicalForm α} {f : Function α} {s : ConstraintSet α} {author : Author}
      {o : Error} (hasks : form.Asks f s) (h : r.BuildFailure l f s author o) :
      FormFailure r l form author o

variable {r : Registry α} {l : Label} {e : Error}

theorem FormFailure.not_isLabelled {form : CanonicalForm α} {o : Error}
    (h : r.FormFailure l form .compiler o) : ¬ o.IsLabelled := by
  cases h with
  | vectorBroadcast => exact Label.not_isLabelled_ofCause _
  | noBound => exact Label.not_isLabelled_ofCause _
  | build _ h => exact h.not_isLabelled

/-- A function that a form asks for fails under the label. -/
theorem exists_formFailure_of_build {form : CanonicalForm α} {f : Function α}
    {s : ConstraintSet α} (hasks : form.Asks f s) (h : r.build l f s = .error e) :
    ∃ author o, r.FormFailure l form author o ∧ e = l.attach o := by
  obtain ⟨author, o, ho, rfl⟩ := exists_buildFailure h
  exact ⟨author, o, .build hasks ho, rfl⟩

omit [Zero α] [One α] [Add α] [Sub α] in
/-- A range fails over a bound that is missing. -/
theorem rangeAt_cases (l : Label) (lb ub : Bound α) (i : Nat) :
    (∃ lower upper, lb.at? i = some lower ∧ ub.at? i = some upper ∧
        rangeAt l lb ub i = .ok (.interval lower upper)) ∨
      (lb.at? i = none ∨ ub.at? i = none) ∧
        rangeAt l lb ub i =
          .error (l.report (DispatchError.noBound (i + 1) : DispatchError α)) := by
  rw [rangeAt]
  cases hlower : lb.at? i with
  | none => exact .inr ⟨.inl rfl, rfl⟩
  | some lower =>
    cases hupper : ub.at? i with
    | none => exact .inr ⟨.inr rfl, rfl⟩
    | some upper => exact .inl ⟨lower, upper, rfl, rfl, rfl⟩

omit [One α] [Add α] in
/-- A form that is not built broadcasts into a set of vectors, or asks for a constraint that is not
built, or lacks a bound that is looked up. -/
theorem buildForm_eq_error_cases (form : CanonicalForm α) (h : r.buildForm l form = .error e) :
    (∃ f s, form = .membership f (.vector s) true ∧
        e = l.report (DispatchError.vectorBroadcast (.vector s) : DispatchError α)) ∨
      (∃ f s, form.Asks f s ∧ r.build l f s = .error e) ∨
        ∃ lb ub i, form.LooksUp lb ub i ∧ (lb.at? i = none ∨ ub.at? i = none) ∧
          e = l.report (DispatchError.noBound (i + 1) : DispatchError α) := by
  unfold buildForm at h
  split at h
  · rename_i fs s
    rcases Outcome.bind_eq_error_iff.mp h with h | ⟨cs, -, h⟩
    · obtain ⟨f, hf, h⟩ := Outcome.exists_of_mapM_eq_error h
      exact .inr (.inl ⟨_, _, .element hf, h⟩)
    · cases h
  · cases h
    exact .inl ⟨_, _, rfl, rfl⟩
  · rcases Outcome.bind_eq_error_iff.mp h with h | ⟨c, -, h⟩
    · exact .inr (.inl ⟨_, _, .whole, h⟩)
    · cases h
  · -- each element has its own bounds, which are looked up before it is built
    rename_i lb fs ub
    rcases Outcome.bind_eq_error_iff.mp h with h | ⟨cs, -, h⟩
    · obtain ⟨⟨f, i⟩, hmem, h⟩ := Outcome.exists_of_mapM_eq_error h
      have hf : fs[i]? = some f := List.mem_zipIdx_iff_getElem?.mp hmem
      rcases rangeAt_cases l lb ub i with ⟨lower, upper, hlower, hupper, hrange⟩ | ⟨hnone, hrange⟩
      · simp only [hrange] at h
        exact .inr (.inl ⟨_, _, .elementBetween hf hlower hupper, h⟩)
      · simp only [hrange] at h
        cases h
        obtain ⟨hi, -⟩ := List.getElem?_eq_some_iff.mp hf
        exact .inr (.inr ⟨lb, ub, i, .element hi, hnone, rfl⟩)
    · cases h
  · rename_i lb f ub broadcast hnot
    rcases rangeAt_cases l lb ub 0 with ⟨lower, upper, hlower, hupper, hrange⟩ | ⟨hnone, hrange⟩
    · rw [hrange] at h
      have hbuild : (.single <$> r.build l f (.scalar (.interval lower upper)) :
          Except Error (ConstraintGroup α)) = .error e := h
      exact .inr (.inl ⟨_, _, .between hlower hupper, Outcome.map_eq_error_iff.mp hbuild⟩)
    · rw [hrange] at h
      cases h
      refine .inr (.inr ⟨lb, ub, 0, .whole fun harray => ?_, hnone, rfl⟩)
      cases f with
      | array fs => exact Bool.eq_false_iff.mpr (hnot fs rfl)
      | _ => cases harray

theorem exists_formFailure (form : CanonicalForm α) (h : r.buildForm l form = .error e) :
    ∃ author o, r.FormFailure l form author o ∧ e = l.attach o := by
  rcases buildForm_eq_error_cases form h with
    ⟨f, s, rfl, rfl⟩ | ⟨f, s, hasks, hbuild⟩ | ⟨lb, ub, i, hlookup, hnone, rfl⟩
  · exact ⟨_, _, .vectorBroadcast, l.report_eq_attach _⟩
  · exact exists_formFailure_of_build hasks hbuild
  · cases hlookup with
    | element => exact ⟨_, _, .noBound hnone, l.report_eq_attach _⟩
    | whole => exact ⟨_, _, .noBound hnone, l.report_eq_attach _⟩

end Registry

end Building

end AlgebraicModel
