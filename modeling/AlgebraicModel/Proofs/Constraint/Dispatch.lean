import AlgebraicModel.Proofs.Constraint.Broadcast
import AlgebraicModel.Proofs.Constraint.Origins

/-!
# The standard pairings

What the standard registry does with a function and a set can be read off the two of them.
`Constraint.Fits` lists the pairings that are built, each with its constraint, and
`Constraint.Refuses` those that are refused, each with the reason. Neither looks at categories or
builders.

The lists leave nothing out (`Constraint.fits_or_refuses`), and the registry follows them
(`Constraint.dispatch_of_fits`, `Constraint.dispatch_of_refuses`), so it builds and refuses exactly
what they say (`Registry.standard_dispatch_exact`). The category of an array is computed from its
elements before a builder looks at them again one by one. Since the two agree, what a builder has to
say of an unexpected function or element is never heard.
-/

set_option autoImplicit false

namespace AlgebraicModel

open Outcome

variable {α : Type}

/-- The set is a bound on one side or an equation. -/
def ScalarSet.IsBound (s : ScalarSet α) : Prop :=
  ∃ b, s = .lessThan b ∨ s = .greaterThan b ∨ s = .equalTo b

namespace Constraint

/-! ## The two lists -/

/-- The functions and sets that are built into a constraint, and the constraint. -/
inductive Fits [Zero α] [One α] [Add α] [Sub α] :
    Function α → ConstraintSet α → Constraint α → Prop
  | bareVariable {v : VarRef} {s : ScalarSet α} :
      Fits (.var v) (.scalar s) ⟨.singleVariable v, .scalar s⟩
  /-- Nothing is left of a constant when it is taken over into the set. -/
  | constant {c : α} {s : ScalarSet α} (hs : s.isIntegrality = false) :
      Fits (.constant c) (.scalar s) ⟨.affine .zero, .scalar (s.shift c)⟩
  | affine {f : Affine α} {s : ScalarSet α} (hs : s.isIntegrality = false) :
      Fits (.affine f) (.scalar s) ⟨.affine (f.setConstant 0), .scalar (s.shift f.constant)⟩
  | quadratic {f : Quadratic α} {s : ScalarSet α} (hs : s.IsBound) :
      Fits (.quadratic f) (.scalar s)
        ⟨.quadratic { f with affine := f.affine.setConstant 0 }, .scalar (s.shift f.constant)⟩
  | vars {vs : List VarRef} {s : VectorSet} (hlength : vs.length = s.dimension) :
      Fits (.array (vs.map .var)) (.vector s) ⟨.vectorOfVariables vs, .vector s⟩
  /-- The elements keep their constants. -/
  | affineVector {fs : List (Function α)} {gs : List (Affine α)} {s : VectorSet}
      (hfs : List.Forall₂ (fun f g => f.toAffine? = some g) fs gs)
      (hvar : ∃ f ∈ fs, f.isVar = false) (hlength : fs.length = s.dimension) :
      Fits (.array fs) (.vector s) ⟨.vectorAffine gs, .vector s⟩

/-- The functions and sets that are refused, and the reason that is given. -/
inductive Refuses : Function α → ConstraintSet α → DispatchError α → Prop
  | twoSided {f : Quadratic α} {lower upper : α} :
      Refuses (.quadratic f) (.scalar (.interval lower upper)) .twoSidedQuadratic
  | vectorInScalarSet {fs : List (Function α)} {s : ScalarSet α} :
      Refuses (.array fs) (.scalar s) (.vectorInScalarSet (.scalar s))
  | wrongDimension {fs : List (Function α)} {s : VectorSet}
      (hlinear : ∀ f ∈ fs, f.isLinear = true) (hlength : fs.length ≠ s.dimension) :
      Refuses (.array fs) (.vector s) (.wrongDimension fs.length s)
  /-- Only a bare variable can be held in an integrality set. -/
  | integrality {f : Function α} {s : ScalarSet α} (hvar : f.isVar = false)
      (harray : f.isArray = false) (hs : s.isIntegrality = true) :
      Refuses f (.scalar s) (.noBuilder f.category (.scalar s))
  | scalarInCone {f : Function α} {s : VectorSet} (harray : f.isArray = false) :
      Refuses f (.vector s) (.noBuilder f.category (.vector s))
  | nonlinearElement {fs : List (Function α)} {f : Function α} {s : VectorSet} (hf : f ∈ fs)
      (hlinear : f.isLinear = false) :
      Refuses (.array fs) (.vector s) (.noBuilder .array (.vector s))

/-! ## Elements of arrays -/

theorem exists_vars {fs : List (Function α)} (h : ∀ f ∈ fs, f.isVar = true) :
    ∃ vs : List VarRef, fs = vs.map .var := by
  induction fs with
  | nil => exact ⟨[], rfl⟩
  | cons f fs ih =>
    obtain ⟨hf, hfs⟩ := List.forall_mem_cons.mp h
    obtain ⟨vs, rfl⟩ := ih hfs
    cases f with
    | var v => exact ⟨v :: vs, rfl⟩
    | _ => cases hf

theorem category_vars (vs : List VarRef) :
    (Function.array (vs.map .var) : Function α).category = .varVector := by
  have hvars : (vs.map (Function.var (α := α))).all Function.isVar = true := by
    simp [Function.isVar]
  rw [Function.category, if_pos hvars]

/-- An array of linear functions is a vector of variables or one of affine functions. -/
theorem category_of_linear {fs : List (Function α)} (h : ∀ f ∈ fs, f.isLinear = true) :
    (Function.array fs).category = if fs.all Function.isVar then .varVector else .affineVector := by
  have hall : fs.all Function.isLinear = true := List.all_eq_true.mpr h
  rw [Function.category, hall]
  rfl

theorem isVar_of_nonlinear {f : Function α} (h : f.isLinear = false) : f.isVar = false := by
  cases f with
  | var v => cases h
  | _ => rfl

/-- An array is neither kind of vector when one element is not linear. -/
theorem category_of_nonlinear {fs : List (Function α)} {f : Function α} (hf : f ∈ fs)
    (h : f.isLinear = false) : (Function.array fs).category = .array := by
  have hvars : fs.all Function.isVar = false :=
    List.all_eq_false.mpr ⟨f, hf, Bool.eq_false_iff.mp (isVar_of_nonlinear h)⟩
  have hlinears : fs.all Function.isLinear = false :=
    List.all_eq_false.mpr ⟨f, hf, Bool.eq_false_iff.mp h⟩
  rw [Function.category, hvars, hlinears]
  rfl

theorem checkDimension_of_eq {n : Nat} {s : VectorSet} (h : n = s.dimension) :
    checkDimension (α := α) n (.vector s) = .ok () :=
  if_pos h.symm

theorem checkDimension_of_ne {n : Nat} {s : VectorSet} (h : n ≠ s.dimension) :
    checkDimension (α := α) n (.vector s) = .error (.wrongDimension n s) :=
  if_neg h.symm

theorem mapM_asVariable (vs : List VarRef) :
    (vs.map (Function.var (α := α))).mapM asVariable = .ok vs := by
  rw [mapM_eq_ok_iff, List.forall₂_map_left_iff, List.forall₂_same]
  intro v _
  rfl

section Widening

variable [Zero α] [One α] [Add α]

theorem exists_toAffine? {f : Function α} (h : f.isLinear = true) : ∃ g, f.toAffine? = some g := by
  cases f with
  | constant c => exact ⟨_, rfl⟩
  | var v => exact ⟨_, rfl⟩
  | affine f => exact ⟨f, rfl⟩
  | quadratic f => cases h
  | array fs => cases h

theorem isLinear_of_toAffine? {f : Function α} {g : Affine α} (h : f.toAffine? = some g) :
    f.isLinear = true := by
  cases f with
  | quadratic f => cases h
  | array fs => cases h
  | _ => rfl

theorem exists_forall₂_toAffine? {fs : List (Function α)} (h : ∀ f ∈ fs, f.isLinear = true) :
    ∃ gs, List.Forall₂ (fun f g => f.toAffine? = some g) fs gs := by
  induction fs with
  | nil => exact ⟨[], .nil⟩
  | cons f fs ih =>
    obtain ⟨hf, hfs⟩ := List.forall_mem_cons.mp h
    obtain ⟨g, hg⟩ := exists_toAffine? hf
    obtain ⟨gs, hgs⟩ := ih hfs
    exact ⟨g :: gs, .cons hg hgs⟩

theorem isLinear_of_forall₂ {fs : List (Function α)} {gs : List (Affine α)}
    (h : List.Forall₂ (fun f g => f.toAffine? = some g) fs gs) : ∀ f ∈ fs, f.isLinear = true := by
  induction h with
  | nil => exact List.forall_mem_nil _
  | cons hg _ ih => exact List.forall_mem_cons.mpr ⟨isLinear_of_toAffine? hg, ih⟩

theorem mapM_asAffine {fs : List (Function α)} {gs : List (Affine α)}
    (h : List.Forall₂ (fun f g => f.toAffine? = some g) fs gs) : fs.mapM asAffine = .ok gs := by
  rw [mapM_eq_ok_iff]
  apply h.imp
  intro f g hg
  rw [asAffine, hg]

end Widening

variable [Zero α] [One α] [Add α] [Sub α]

/-! ## The lists leave nothing out -/

/-- Of an array in a cone the elements count first, and then the length. -/
theorem fits_or_refuses_array (fs : List (Function α)) (s : VectorSet) :
    (∃ c, Fits (.array fs) (.vector s) c) ∨ ∃ e, Refuses (.array fs) (.vector s) e := by
  by_cases hlinear : ∀ f ∈ fs, f.isLinear = true
  · by_cases hlength : fs.length = s.dimension
    · by_cases hvars : ∀ f ∈ fs, f.isVar = true
      · obtain ⟨vs, rfl⟩ := exists_vars hvars
        rw [List.length_map] at hlength
        exact .inl ⟨_, .vars hlength⟩
      · obtain ⟨gs, hgs⟩ := exists_forall₂_toAffine? hlinear
        push Not at hvars
        obtain ⟨f, hf, hvar⟩ := hvars
        exact .inl ⟨_, .affineVector hgs ⟨f, hf, Bool.eq_false_iff.mpr hvar⟩ hlength⟩
    · exact .inr ⟨_, .wrongDimension hlinear hlength⟩
  · push Not at hlinear
    obtain ⟨f, hf, hlinear⟩ := hlinear
    exact .inr ⟨_, .nonlinearElement hf (Bool.eq_false_iff.mpr hlinear)⟩

theorem fits_or_refuses_quadratic (f : Quadratic α) {s : ScalarSet α}
    (hs : s.isIntegrality = false) :
    (∃ c, Fits (.quadratic f) (.scalar s) c) ∨ ∃ e, Refuses (.quadratic f) (.scalar s) e := by
  cases s with
  | lessThan b => exact .inl ⟨_, .quadratic ⟨b, .inl rfl⟩⟩
  | greaterThan b => exact .inl ⟨_, .quadratic ⟨b, .inr (.inl rfl)⟩⟩
  | equalTo b => exact .inl ⟨_, .quadratic ⟨b, .inr (.inr rfl)⟩⟩
  | interval lower upper => exact .inr ⟨_, .twoSided⟩
  | integer => cases hs
  | zeroOne => cases hs

/-- Every function and set stand in one of the two lists. -/
theorem fits_or_refuses (f : Function α) (s : ConstraintSet α) :
    (∃ c, Fits f s c) ∨ ∃ e, Refuses f s e := by
  cases s with
  | vector s =>
    cases f with
    | array fs => exact fits_or_refuses_array fs s
    | _ => exact .inr ⟨_, .scalarInCone rfl⟩
  | scalar s =>
    cases hs : s.isIntegrality with
    | true =>
      cases f with
      | var v => exact .inl ⟨_, .bareVariable⟩
      | array fs => exact .inr ⟨_, .vectorInScalarSet⟩
      | _ => exact .inr ⟨_, .integrality rfl rfl hs⟩
    | false =>
      cases f with
      | constant c => exact .inl ⟨_, .constant hs⟩
      | var v => exact .inl ⟨_, .bareVariable⟩
      | affine f => exact .inl ⟨_, .affine hs⟩
      | quadratic f => exact fits_or_refuses_quadratic f hs
      | array fs => exact .inr ⟨_, .vectorInScalarSet⟩

/-! ## The table follows the lists -/

/-- What the table of standard pairings makes of a function and a set. -/
def dispatch (f : Function α) (s : ConstraintSet α) : Except (DispatchError α) (Constraint α) :=
  match standard? f.category s.category with
  | none => .error (.noBuilder f.category s)
  | some way => way f s

/-- For an array and a cone the table is entered with the category of the array. -/
theorem dispatch_array {fs : List (Function α)} {s : VectorSet} {fc : FunctionCategory}
    (h : (Function.array fs).category = fc) :
    dispatch (.array fs) (.vector s) =
      match standard? fc .vector with
      | none => .error (.noBuilder fc (.vector s))
      | some way => way (.array fs) (.vector s) := by
  rw [dispatch, h]
  rfl

theorem dispatch_of_fits {f : Function α} {s : ConstraintSet α} {c : Constraint α}
    (h : Fits f s c) : dispatch f s = .ok c := by
  cases h with
  | @bareVariable v s => cases s <;> rfl
  | @constant c s hs =>
    cases s with
    | integer => cases hs
    | zeroOne => cases hs
    | _ => rfl
  | @affine f s hs =>
    cases s with
    | integer => cases hs
    | zeroOne => cases hs
    | _ => rfl
  | quadratic hs =>
    obtain ⟨b, rfl | rfl | rfl⟩ := hs
    · rfl
    · rfl
    · rfl
  | @vars vs s hlength =>
    rw [dispatch_array (category_vars vs)]
    change ofVariables _ _ = _
    rw [ofVariables, List.length_map, checkDimension_of_eq hlength, mapM_asVariable]
    rfl
  | @affineVector fs gs s hfs hvar hlength =>
    obtain ⟨f, hf, hvar⟩ := hvar
    have hnot : fs.all Function.isVar = false :=
      List.all_eq_false.mpr ⟨f, hf, Bool.eq_false_iff.mp hvar⟩
    have hcategory := category_of_linear (isLinear_of_forall₂ hfs)
    rw [hnot] at hcategory
    rw [dispatch_array hcategory]
    change ofAffineVector _ _ = _
    rw [ofAffineVector, checkDimension_of_eq hlength, mapM_asAffine hfs]
    rfl

/-- Whichever kind of vector the array is, its length is looked at before its elements. -/
theorem dispatch_of_wrongDimension {fs : List (Function α)} {s : VectorSet}
    (hlinear : ∀ f ∈ fs, f.isLinear = true) (hlength : fs.length ≠ s.dimension) :
    dispatch (.array fs) (.vector s) = .error (.wrongDimension fs.length s) := by
  rw [dispatch_array (category_of_linear hlinear)]
  cases fs.all Function.isVar with
  | true =>
    change ofVariables _ _ = _
    rw [ofVariables, checkDimension_of_ne hlength]
    rfl
  | false =>
    change ofAffineVector _ _ = _
    rw [ofAffineVector, checkDimension_of_ne hlength]
    rfl

theorem dispatch_of_vectorInScalarSet (fs : List (Function α)) (s : ScalarSet α) :
    dispatch (.array fs) (.scalar s) = .error (.vectorInScalarSet (.scalar s)) := by
  -- an array has one of three categories, and each stands with all three sorts of scalar sets
  have hcategory : (Function.array fs).category = .varVector ∨
      (Function.array fs).category = .affineVector ∨ (Function.array fs).category = .array := by
    rw [Function.category]
    split
    · exact .inl rfl
    · split
      · exact .inr (.inl rfl)
      · exact .inr (.inr rfl)
  rw [dispatch]
  rcases hcategory with h | h | h
  · rw [h]
    cases s <;> rfl
  · rw [h]
    cases s <;> rfl
  · rw [h]
    cases s <;> rfl

/-- For lack of a builder is refused what the table has no entry for. -/
theorem standard?_eq_none_of_refuses {f : Function α} {s s' : ConstraintSet α}
    {fc : FunctionCategory} (h : Refuses f s (.noBuilder fc s')) :
    standard? (α := α) f.category s.category = none ∧ fc = f.category ∧ s' = s := by
  cases h with
  | @integrality _ s hvar harray hs =>
    have hcategory : (ConstraintSet.scalar s).category = .integrality := by
      cases s with
      | integer => rfl
      | zeroOne => rfl
      | _ => cases hs
    refine ⟨?_, rfl, rfl⟩
    rw [hcategory]
    cases f with
    | var v => cases hvar
    | array fs => cases harray
    | _ => rfl
  | scalarInCone harray =>
    refine ⟨?_, rfl, rfl⟩
    cases f with
    | array fs => cases harray
    | _ => rfl
  | nonlinearElement hf hlinear =>
    rw [category_of_nonlinear hf hlinear]
    exact ⟨rfl, rfl, rfl⟩

theorem dispatch_of_refuses {f : Function α} {s : ConstraintSet α} {e : DispatchError α}
    (h : Refuses f s e) : dispatch f s = .error e := by
  cases e with
  | noBuilder fc s' =>
    obtain ⟨hnone, rfl, rfl⟩ := standard?_eq_none_of_refuses h
    rw [dispatch, hnone]
  | twoSidedQuadratic =>
    cases h
    rfl
  | vectorInScalarSet s' =>
    cases h
    exact dispatch_of_vectorInScalarSet _ _
  | wrongDimension length s' =>
    cases h with
    | wrongDimension hlinear hlength => exact dispatch_of_wrongDimension hlinear hlength
  | _ => cases h

theorem dispatch_eq_ok_iff {f : Function α} {s : ConstraintSet α} {c : Constraint α} :
    dispatch f s = .ok c ↔ Fits f s c := by
  constructor
  · intro h
    rcases fits_or_refuses f s with ⟨c', hc'⟩ | ⟨e, he⟩
    · rw [dispatch_of_fits hc'] at h
      cases h
      exact hc'
    · rw [dispatch_of_refuses he] at h
      cases h
  · exact dispatch_of_fits

theorem dispatch_eq_error_iff {f : Function α} {s : ConstraintSet α} {e : DispatchError α} :
    dispatch f s = .error e ↔ Refuses f s e := by
  constructor
  · intro h
    rcases fits_or_refuses f s with ⟨c, hc⟩ | ⟨e', he'⟩
    · rw [dispatch_of_fits hc] at h
      cases h
    · rw [dispatch_of_refuses he'] at h
      cases h
      exact he'
  · exact dispatch_of_refuses

/-- The table has no entry exactly where the want of a builder is the reason to refuse. -/
theorem standard?_eq_none_iff {f : Function α} {s : ConstraintSet α} :
    standard? (α := α) f.category s.category = none ↔ Refuses f s (.noBuilder f.category s) := by
  constructor
  · intro h
    apply dispatch_eq_error_iff.mp
    rw [dispatch, h]
  · intro h
    exact (standard?_eq_none_of_refuses h).1

omit [Zero α] [One α] [Add α] [Sub α] in
/-- No message opens with what a builder would have expected. -/
theorem Refuses.message_ne_expected [Coefficient α] {f : Function α} {s : ConstraintSet α}
    {e : DispatchError α} (h : Refuses f s e) (rest : String) :
    e.message ≠ "expected " ++ rest := by
  intro heq
  -- the four reasons open with four letters, and none of them is this one
  have hopening : e.message.toList.head? = some 'e' := by
    rw [heq, String.toList_append]
    rfl
  unfold DispatchError.message at hopening
  cases h
  all_goals
    simp only [String.toList_append, List.append_assoc] at hopening
    cases hopening

end Constraint

namespace Registry

variable [Coefficient α] [Zero α] [One α] [Add α] [Sub α]

/-- A standard registry puts the label in front of what the table gives. -/
theorem build_standard_eq_dispatch (l : Label) (f : Function α) (s : ConstraintSet α) :
    standard.build l f s = (Constraint.dispatch f s).mapError l.report := by
  cases hway : Constraint.standard? (α := α) f.category s.category with
  | none =>
    have hnone : standard.builder? f.category s.category = none :=
      congrArg (Option.map unlabelled) hway
    rw [Constraint.dispatch, hway, build, hnone]
    rfl
  | some way =>
    rw [Constraint.dispatch, hway, build_standard hway]
    change _ = (way f s).mapError l.report
    cases way f s with
    | ok c => rfl
    | error e => exact congrArg Except.error (l.report_eq_attach e).symm

/-- The standard registry builds the listed pairings and refuses the others, each for the listed
reason and under the label. For want of a builder it refuses those that it has none for, and no
error tells what a builder expected. -/
theorem standard_dispatch_exact (l : Label) (f : Function α) (s : ConstraintSet α) :
    (∀ c, standard.build l f s = .ok c ↔ Constraint.Fits f s c) ∧
    (∀ e, standard.build l f s = .error e ↔
      ∃ cause, Constraint.Refuses f s cause ∧ e = l.report cause) ∧
    ((standard (α := α)).builder? f.category s.category = none ↔
      Constraint.Refuses f s (.noBuilder f.category s)) ∧
    ∀ e rest, standard.build l f s = .error e →
      e.details ≠ some (l.front ++ ": " ++ ("expected " ++ rest)) := by
  have herror : ∀ e, standard.build l f s = .error e ↔
      ∃ cause, Constraint.Refuses f s cause ∧ e = l.report cause := by
    intro e
    rw [build_standard_eq_dispatch, mapError_eq_error_iff]
    apply exists_congr
    intro cause
    rw [Constraint.dispatch_eq_error_iff, eq_comm]
  refine ⟨?_, herror, ?_, ?_⟩
  · intro c
    rw [build_standard_eq_dispatch, mapError_eq_ok_iff, Constraint.dispatch_eq_ok_iff]
  · rw [← Constraint.standard?_eq_none_iff]
    exact Option.map_eq_none_iff
  · intro e rest h hdetails
    obtain ⟨cause, hcause, rfl⟩ := (herror e).mp h
    have hmessage := Option.some.inj hdetails
    -- the label is the same on both sides, so that the messages would be
    rw [String.append_right_inj] at hmessage
    exact hcause.message_ne_expected rest hmessage

end Registry

end AlgebraicModel
