import AlgebraicModel.Proofs.Constraint.Dispatch

/-!
# Ranges have a bound for every element

A range is built by looking up its two bounds: those of each element of a broadcast, or those of the
first element where the range is built as a whole (`CanonicalForm.LooksUp`). A look-up may come to
nothing, and there is an error for that case. Of a canonical form it is never heard.

In a canonical form there are many bounds only in a broadcast, around an array of as many elements
(`CanonicalForm.Bounded`, `Relation.bounded_of_canonicalForm`). So every look-up finds both bounds
(`CanonicalForm.Bounded.exists_bounds`), and what fails is a broadcast into a set of vectors or one
of the functions that the form asks for (`Registry.buildForm_eq_error_of_bounded`). No standard
builder words its failure as a missing bound (`Constraint.Refuses.report_ne_noBound`); that is left
to builders of the caller's own (`Registry.exists_caller_of_noBound`).
-/

set_option autoImplicit false

namespace AlgebraicModel

open Outcome

variable {α : Type}

/-! ## Bounds that suit a function -/

/-- There is one bound for all elements, or, in a broadcast, one for each element of the array. -/
def Bound.Suits (b : Bound α) (f : Function α) (broadcast : Bool) : Prop :=
  ∀ n ∈ b.length?, broadcast = true ∧ f.length? = some n

/-- The bounds of the form, if it has any, suit its function. -/
def CanonicalForm.Bounded : CanonicalForm α → Prop
  | membership _ _ _ => True
  | ranged lb f ub broadcast => lb.Suits f broadcast ∧ ub.Suits f broadcast

namespace Bound

theorem Suits.exists_at?_element {b : Bound α} {fs : List (Function α)} {broadcast : Bool} {i : Nat}
    (h : b.Suits (.array fs) broadcast) (hi : i < fs.length) : ∃ c, b.at? i = some c := by
  refine exists_at? (fun n hn => ?_) hi
  obtain ⟨-, hlength⟩ := h n hn
  exact (Option.some.inj hlength).symm

/-- Without the broadcast of an array there is one bound, which is found at any place. -/
theorem Suits.exists_at?_whole {b : Bound α} {f : Function α} {broadcast : Bool}
    (h : b.Suits f broadcast) (hwhole : f.isArray = true → broadcast = false) (i : Nat) :
    ∃ c, b.at? i = some c := by
  cases b with
  | scalar c => exact ⟨c, rfl⟩
  | array cs =>
    obtain ⟨rfl, hlength⟩ := h cs.length rfl
    cases f with
    | array fs => cases hwhole rfl
    | _ => cases hlength

end Bound

/-- Every look-up finds both bounds. -/
theorem CanonicalForm.Bounded.exists_bounds {form : CanonicalForm α} {lb ub : Bound α} {i : Nat}
    (h : form.Bounded) (hlookup : form.LooksUp lb ub i) :
    ∃ lower upper, lb.at? i = some lower ∧ ub.at? i = some upper := by
  cases hlookup with
  | element hi =>
    obtain ⟨lower, hlower⟩ := h.1.exists_at?_element hi
    obtain ⟨upper, hupper⟩ := h.2.exists_at?_element hi
    exact ⟨lower, upper, hlower, hupper⟩
  | whole hwhole =>
    obtain ⟨lower, hlower⟩ := h.1.exists_at?_whole hwhole 0
    obtain ⟨upper, hupper⟩ := h.2.exists_at?_whole hwhole 0
    exact ⟨lower, upper, hlower, hupper⟩

/-! ## Canonical forms are bounded -/

namespace Function

/-- There are many bounds at an end of a range in a broadcast only. -/
theorem broadcast_of_toBound {which : RangeEnd} {broadcast : Bool} {g : Function α} {b : Bound α}
    (h : g.toBound which broadcast = .ok b) {n : Nat} (hn : n ∈ b.length?) : broadcast = true := by
  rcases toBound_cases h with ⟨c, -, rfl⟩ | ⟨cs, hbroadcast, -, -⟩
  · cases hn
  · exact hbroadcast

/-- The check of the bounds is passed where each array of them is as long as the function. -/
theorem checkBounds_eq_ok_iff {f : Function α} {lb ub : Bound α} :
    f.checkBounds lb ub = .ok () ↔
      (∀ n ∈ lb.length?, f.length? = some n) ∧ ∀ n ∈ ub.length?, f.length? = some n := by
  cases f with
  | array fs =>
    have hlength : ∀ b : Bound α, b.checkLength fs.length = .ok () ↔
        ∀ n ∈ b.length?, (array fs).length? = some n := by
      intro b
      rw [Bound.checkLength_eq_ok_iff]
      refine forall₂_congr fun n _ => ?_
      rw [length?, Option.some.injEq, eq_comm]
    rw [← hlength lb, ← hlength ub, checkBounds, bind_eq_ok_iff]
    constructor
    · rintro ⟨⟨⟩, hl, hu⟩
      exact ⟨hl, hu⟩
    · rintro ⟨hl, hu⟩
      exact ⟨(), hl, hu⟩
  | _ =>
    -- a function that is no array has no length, so there is to be no array of bounds
    simp [checkBounds, length?, Option.eq_none_iff_forall_not_mem]

variable [Zero α]

theorem length?_withoutAdditive (f : Function α) : f.withoutAdditive.length? = f.length? := by
  cases f <;> rfl

theorem length?_relocate [Sub α] (f : Function α) (s : ScalarSet α) :
    (f.relocate s).1.length? = f.length? := by
  rw [relocate]
  split
  · rfl
  · exact f.length?_withoutAdditive

end Function

/-- Bounds that have been read from the ends of a range and checked suit the function, and so they
do when its constant has moved them. -/
theorem Bound.suits_of_toBound [Zero α] [Sub α] {which : RangeEnd} {broadcast : Bool}
    {g f : Function α} {b : Bound α} (hb : g.toBound which broadcast = .ok b)
    (hlength : ∀ n ∈ b.length?, f.length? = some n) (s : ScalarSet α) (c : α) :
    (b.shift c).Suits (f.relocate s).1 broadcast := by
  intro n hn
  rw [length?_shift] at hn
  rw [Function.length?_relocate]
  exact ⟨Function.broadcast_of_toBound hb hn, hlength n hn⟩

section Canonical

variable [Zero α] [One α] [Neg α] [Add α] [Sub α] [Mul α]

theorem Relation.bounded_of_canonicalForm {r : Relation α} {form : CanonicalForm α}
    (h : r.canonicalForm = .ok form) : form.Bounded := by
  cases r with
  | oneSided lhs op rhs broadcast =>
    rw [canonicalForm] at h
    split at h
    · cases h
    · obtain ⟨f, -, h⟩ := bind_eq_ok_iff.mp h
      cases h
      trivial
  | ranged lb op₁ mid op₂ ub broadcast =>
    rw [canonicalForm] at h
    split at h
    · cases h
    · -- which of the two ends is the lower one plays no part from here on
      obtain ⟨lower, hlower, h⟩ := bind_eq_ok_iff.mp h
      obtain ⟨upper, hupper, h⟩ := bind_eq_ok_iff.mp h
      obtain ⟨⟨⟩, hlength, h⟩ := bind_eq_ok_iff.mp h
      cases h
      obtain ⟨hl, hu⟩ := Function.checkBounds_eq_ok_iff.mp hlength
      exact ⟨Bound.suits_of_toBound hlower hl _ _, Bound.suits_of_toBound hupper hu _ _⟩
  | membership f s broadcast =>
    cases h
    trivial

end Canonical

/-! ## Failures to build -/

/-- A wrong dimension and a missing bound have the same kind and the same code, and the messages
tell them apart. -/
theorem DispatchError.message_wrongDimension_ne [Coefficient α] (length k : Nat) (s : VectorSet) :
    (wrongDimension length s : DispatchError α).message ≠
      (noBound k : DispatchError α).message := by
  intro heq
  unfold message at heq
  -- the two messages open with different letters
  have hopening := congrArg (fun m : String => m.toList.head?) heq
  simp only [String.toList_append, List.append_assoc] at hopening
  cases hopening

/-- No reason of the standard registry is a missing bound. -/
theorem Constraint.Refuses.report_ne_noBound [Coefficient α] {f : Function α} {s : ConstraintSet α}
    {e : DispatchError α} (h : Refuses f s e) (l : Label) (k : Nat) :
    l.report e ≠ l.report (DispatchError.noBound k : DispatchError α) := by
  intro heq
  obtain ⟨hkind, -, hmessage⟩ := l.report_eq_report_iff.mp heq
  cases h with
  | wrongDimension => exact DispatchError.message_wrongDimension_ne _ _ _ hmessage
  | _ => cases hkind

namespace Registry

variable [Coefficient α] [Zero α] [One α] [Add α] [Sub α]

variable {registry : Registry α} {l : Label} {form : CanonicalForm α} {k : Nat}

/-- A builder that words its failure as a missing bound is one of the caller's own. -/
theorem BuildFailure.author_of_noBound {f : Function α} {s : ConstraintSet α} {author : Author}
    {o : Error} (h : registry.BuildFailure l f s author o)
    (ho : l.attach o = l.report (DispatchError.noBound k : DispatchError α)) : author = .caller := by
  cases h with
  | noBuilder hnone =>
    rw [← l.report_eq_attach, l.report_eq_report_iff] at ho
    cases ho.1
  | @standard way e hway hb he =>
    have hdispatch : Constraint.dispatch f s = .error e := by
      rw [Constraint.dispatch, hway]
      exact he
    rw [← l.report_eq_attach] at ho
    exact absurd ho ((Constraint.dispatch_eq_error_iff.mp hdispatch).report_ne_noBound l k)
  | custom hb hcustom hfail => rfl

/-- The standard registry has no builder of the caller's own. -/
theorem not_standard_buildFailure_caller {f : Function α} {s : ConstraintSet α} {o : Error} :
    ¬ (standard : Registry α).BuildFailure l f s .caller o := by
  intro h
  cases h with
  | custom hb hcustom hfail =>
    obtain ⟨way, hway, rfl⟩ := Option.map_eq_some_iff.mp hb
    exact hcustom way hway rfl

omit [One α] [Add α] in
/-- A form that has its bounds fails over a broadcast into a set of vectors, or over a function that
it asks for. -/
theorem buildForm_eq_error_of_bounded {e : Error} (hform : form.Bounded)
    (h : registry.buildForm l form = .error e) :
    (∃ f s, form = .membership f (.vector s) true ∧
        e = l.report (DispatchError.vectorBroadcast (.vector s) : DispatchError α)) ∨
      ∃ f s, form.Asks f s ∧ registry.build l f s = .error e := by
  rcases buildForm_eq_error_cases form h with hvector | hbuild | ⟨lb, ub, i, hlookup, hnone, -⟩
  · exact .inl hvector
  · exact .inr hbuild
  · obtain ⟨lower, upper, hlower, hupper⟩ := hform.exists_bounds hlookup
    rcases hnone with hnone | hnone
    · rw [hlower] at hnone
      cases hnone
    · rw [hupper] at hnone
      cases hnone

-- A form with more elements than bounds does end with the error.
example : Registry.standard.buildForm ⟨"c"⟩
      (.ranged (.array [0.0]) (.array [.var ⟨1, 0⟩, .var ⟨1, 1⟩]) (.scalar 1.0) true) =
    .error (Label.report ⟨"c"⟩ (DispatchError.noBound 2 : DispatchError Float)) := rfl

/-- Where the error of a missing bound comes out of a form that has its bounds, a builder of the
caller's own has put it there. -/
theorem exists_caller_of_noBound (hform : form.Bounded)
    (h : registry.buildForm l form =
      .error (l.report (DispatchError.noBound k : DispatchError α))) :
    ∃ f s o, form.Asks f s ∧ registry.BuildFailure l f s .caller o ∧
      l.attach o = l.report (DispatchError.noBound k : DispatchError α) := by
  rcases buildForm_eq_error_of_bounded hform h with ⟨f, s, -, heq⟩ | ⟨f, s, hasks, hbuild⟩
  · cases (l.report_eq_report_iff.mp heq).1
  · obtain ⟨author, o, ho, heq⟩ := exists_buildFailure hbuild
    obtain rfl := ho.author_of_noBound heq.symm
    exact ⟨f, s, o, hasks, ho, heq.symm⟩

omit [One α] [Add α] in
/-- A broadcast between bounds that is built has a constraint for each element. -/
theorem length_of_buildForm {lb ub : Bound α} {fs : List (Function α)} {group : ConstraintGroup α}
    (h : registry.buildForm l (.ranged lb (.array fs) ub true) = .ok group) :
    ∃ cs, group = .broadcast cs ∧ cs.length = fs.length := by
  obtain ⟨cs, hcs, h⟩ := bind_eq_ok_iff.mp h
  cases h
  refine ⟨cs, rfl, ?_⟩
  rw [← (mapM_eq_ok_iff.mp hcs).length_eq, List.length_zipIdx]

end Registry

/-! ## Canonical forms -/

namespace Relation

variable [Zero α] [One α] [Neg α] [Add α] [Sub α] [Mul α] [Coefficient α]

/-- A canonical form has a bound for every element. Arrays of bounds stand in a broadcast only,
around an array of the same length, so that building the form, by whatever registry, finds both
bounds at every look-up and never fails for want of one. What fails is a broadcast into a set of
vectors or a function that the form asks for; the error of a missing bound could only be one that a
builder of the caller's own makes up, and the standard registry never ends with it. A broadcast
range over `n` elements is built into `n` constraints. -/
theorem canonicalize_bounds_every_element (l l' : Label) {r : Relation α} {form : CanonicalForm α}
    (h : r.canonicalize l = .ok form) (registry : Registry α) :
    form.Bounded ∧
    (∀ lb ub i, form.LooksUp lb ub i → ∃ lower upper, lb.at? i = some lower ∧
      ub.at? i = some upper ∧ Registry.rangeAt l' lb ub i = .ok (.interval lower upper)) ∧
    (∀ e, registry.buildForm l' form = .error e →
      (∃ f s, form = .membership f (.vector s) true ∧
          e = l'.report (DispatchError.vectorBroadcast (.vector s) : DispatchError α)) ∨
        ∃ f s, form.Asks f s ∧ registry.build l' f s = .error e) ∧
    (∀ k, registry.buildForm l' form =
        .error (l'.report (DispatchError.noBound k : DispatchError α)) →
      ∃ f s o, form.Asks f s ∧ registry.BuildFailure l' f s .caller o ∧
        l'.attach o = l'.report (DispatchError.noBound k : DispatchError α)) ∧
    (∀ k, Registry.standard.buildForm l' form ≠
      .error (l'.report (DispatchError.noBound k : DispatchError α))) ∧
    ∀ lb fs ub group, form = .ranged lb (.array fs) ub true →
      registry.buildForm l' form = .ok group →
        ∃ cs, group = .broadcast cs ∧ cs.length = fs.length := by
  have hform : form.Bounded := bounded_of_canonicalForm (mapError_eq_ok_iff.mp h)
  refine ⟨hform, ?_, fun e => Registry.buildForm_eq_error_of_bounded hform,
    fun k => Registry.exists_caller_of_noBound hform, ?_, ?_⟩
  · intro lb ub i hlookup
    obtain ⟨lower, upper, hlower, hupper⟩ := hform.exists_bounds hlookup
    exact ⟨lower, upper, hlower, hupper, by rw [Registry.rangeAt, hlower, hupper]⟩
  · intro k hk
    obtain ⟨f, s, o, -, hcaller, -⟩ := Registry.exists_caller_of_noBound hform hk
    exact Registry.not_standard_buildFailure_caller hcaller
  · rintro lb fs ub group rfl hgroup
    exact Registry.length_of_buildForm hgroup

/-- A descending range over two elements, with one upper bound for both and a lower bound for
each. -/
theorem canonicalize_bounds_descending :
    let _ : Coefficient Int := ⟨toString, fun _ => false⟩
    let x : VarRef := ⟨1, 0⟩
    let y : VarRef := ⟨1, 1⟩
    let fs : List (Function Int) := [.var x, .affine ⟨[(y, 2)], 1⟩]
    let r : Relation Int :=
      ranged (.constant 5) .ge (.array fs) .ge (.array [.constant 0, .constant 1]) true
    let form : CanonicalForm Int := .ranged (.array [0, 1]) (.array fs) (.scalar 5) true
    r.canonicalize ⟨"c"⟩ = .ok form ∧ form.Bounded ∧
      Registry.rangeAt ⟨"c"⟩ (.array [0, 1]) (.scalar 5) 1 = .ok (.interval (1 : Int) 5) ∧
      (∀ k, Registry.standard.buildForm ⟨"c"⟩ form ≠
        .error (Label.report ⟨"c"⟩ (DispatchError.noBound k : DispatchError Int))) ∧
      ∃ cs, Registry.standard.buildForm ⟨"c"⟩ form = .ok (.broadcast cs) ∧ cs.length = 2 := by
  intro _ x y fs r form
  have hform : r.canonicalize ⟨"c"⟩ = .ok form := rfl
  obtain ⟨hbounded, hlookup, -, -, hnever, hlength⟩ :=
    canonicalize_bounds_every_element ⟨"c"⟩ ⟨"c"⟩ hform Registry.standard
  obtain ⟨group, hgroup⟩ : ∃ group, Registry.standard.buildForm ⟨"c"⟩ form = .ok group := ⟨_, rfl⟩
  obtain ⟨cs, rfl, hcs⟩ := hlength _ _ _ group rfl hgroup
  obtain ⟨lower, upper, hlower, hupper, hrange⟩ := hlookup _ _ 1 (.element (by decide))
  cases hlower
  cases hupper
  exact ⟨hform, hbounded, hrange, hnever, cs, hgroup, hcs⟩

end Relation

end AlgebraicModel
