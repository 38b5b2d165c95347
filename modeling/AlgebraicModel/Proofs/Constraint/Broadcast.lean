import AlgebraicModel.Constraint.Registry
import AlgebraicModel.Proofs.Binary64.Fields
import AlgebraicModel.Proofs.Relation.Elements

/-!
# A broadcast is built element by element

Two ways lead to the constraint of an element. As a relation of its own it is relocated where it is
brought into canonical form, and as part of a broadcast where it is built; the standard builders
relocate once more in either case. Since relocation leaves nothing to relocate, both ways end in one
constraint or in one error (`Registry.buildElement_standard`), whatever mix of constant, variable,
affine and quadratic elements a broadcast has (`Relation.broadcast_compiles_elementwise`).
-/

set_option autoImplicit false

namespace AlgebraicModel

open Outcome

variable {α : Type} [Zero α] [One α] [Add α] [Sub α]

/-! ## Relocation before building -/

namespace Constraint

theorem ofAffine_relocate (hzero : SubZero α) (f : Function α) (s : ScalarSet α) :
    ofAffine (f.relocate s).1 (.scalar (f.relocate s).2) = ofAffine f (.scalar s) := by
  simp only [ofAffine, Function.relocate_relocate hzero]

omit [One α] [Add α] in
theorem ofQuadratic_relocate (hzero : SubZero α) (f : Function α) (s : ScalarSet α) :
    ofQuadratic (f.relocate s).1 (.scalar (f.relocate s).2) = ofQuadratic f (.scalar s) := by
  simp only [ofQuadratic, Function.relocate_relocate hzero]

/-- A scalar function has a way to be built in a bound or an interval, and its relocated form is
built in the same way, into the same. -/
theorem exists_standard?_relocate (hzero : SubZero α) {f : Function α} {s : ScalarSet α}
    (hf : f.isArray = false) (hs : s.isIntegrality = false) :
    ∃ way, standard? f.category (ConstraintSet.scalar s).category = some way ∧
      standard? (f.relocate s).1.category (ConstraintSet.scalar (f.relocate s).2).category =
        some way ∧
      way (f.relocate s).1 (.scalar (f.relocate s).2) = way f (.scalar s) := by
  cases f with
  | var v =>
    rw [Function.relocate_var hzero]
    exact ⟨ofVariable, by cases s <;> rfl, by cases s <;> rfl, rfl⟩
  | quadratic f =>
    cases s with
    | integer => cases hs
    | zeroOne => cases hs
    -- no quadratic function is built between two bounds, relocated or not
    | interval lower upper => exact ⟨_, rfl, rfl, rfl⟩
    | _ => exact ⟨ofQuadratic, rfl, rfl, ofQuadratic_relocate hzero _ _⟩
  | array fs => cases hf
  | _ =>
    -- what was a constant is an affine function afterwards
    cases s with
    | integer => cases hs
    | zeroOne => cases hs
    | _ => exact ⟨ofAffine, rfl, rfl, ofAffine_relocate hzero _ _⟩

end Constraint

/-- A function in a set, relocated a number of times. -/
def Function.relocateTimes (n : Nat) (f : Function α) (s : ScalarSet α) :
    Function α × ScalarSet α :=
  (fun p => p.1.relocate p.2)^[n] (f, s)

namespace Registry

variable [Coefficient α] {l : Label}

theorem build_standard {f : Function α} {s : ConstraintSet α}
    {way : Function α → ConstraintSet α → Except (DispatchError α) (Constraint α)}
    (h : Constraint.standard? f.category s.category = some way) :
    standard.build l f s = ((way f s).mapError Error.ofCause).mapError l.attach := by
  simp only [build, standard, h, Option.map_some, unlabelled]

/-- It makes no difference to a function whether it is relocated before it is built. -/
theorem buildElement_standard (hzero : SubZero α) (f : Function α) (s : ScalarSet α) :
    standard.buildElement l f s = standard.build l f (.scalar s) := by
  cases hf : f.isArray with
  | true =>
    cases f with
    | array fs => rfl
    | _ => cases hf
  | false =>
    cases hs : s.isIntegrality with
    | true => rw [buildElement, Function.relocate_integrality hs]
    | false =>
      obtain ⟨way, hway, hway', hsame⟩ := Constraint.exists_standard?_relocate hzero hf hs
      rw [build_standard hway, ← hsame]
      exact build_standard hway'

/-- Relocation leaves nothing to relocate, and it cannot be told from what the standard registry
builds, or refuses, whether and how often a function was relocated before: not of any shape, and in
no set. -/
theorem build_standard_relocated (hzero : SubZero α) (l : Label) (f : Function α)
    (s : ScalarSet α) :
    (f.relocate s).1.relocate (f.relocate s).2 = f.relocate s ∧
      standard.build l (f.relocate s).1 (.scalar (f.relocate s).2) =
        standard.build l f (.scalar s) ∧
      ∀ n, standard.build l (f.relocateTimes n s).1 (.scalar (f.relocateTimes n s).2) =
          standard.build l f (.scalar s) ∧
        standard.buildElement l (f.relocateTimes n s).1 (f.relocateTimes n s).2 =
          standard.build l f (.scalar s) := by
  have hbuild (n : Nat) : standard.build l (f.relocateTimes n s).1
      (.scalar (f.relocateTimes n s).2) = standard.build l f (.scalar s) := by
    induction n generalizing f s with
    | zero => rfl
    | succ n ih => exact (ih _ _).trans (buildElement_standard hzero f s)
  refine ⟨f.relocate_relocate hzero s, buildElement_standard hzero f s, fun n => ⟨hbuild n, ?_⟩⟩
  exact (buildElement_standard hzero _ _).trans (hbuild n)

/-- Exact coefficients: a constant, which relocation makes an affine function, and a quadratic
function between two bounds, which is refused after two relocations as it was before. -/
theorem build_standard_relocated_integers :
    let _ : Coefficient Int := ⟨toString, fun _ => false⟩
    let x : VarRef := ⟨1, 0⟩
    let square : Function Int := .quadratic ⟨.ofConstant 3, [((x, x), 1)]⟩
    let p := square.relocateTimes 2 (.interval 0 5)
    SubZero Int ∧
      standard.build ⟨"c"⟩ (.affine .zero) (.scalar (.lessThan (7 : Int))) =
        standard.build ⟨"c"⟩ (.constant 3) (.scalar (.lessThan 10)) ∧
      p.2 = .interval (-3) 2 ∧
      (standard.build ⟨"c"⟩ p.1 (.scalar p.2)).mapError Error.code = .error .twoSidedQuadratic := by
  intro _ x square p
  have hzero : SubZero Int := Int.sub_zero
  refine ⟨hzero, (build_standard_relocated hzero ⟨"c"⟩ (.constant 3) (.lessThan 10)).2.1, rfl, ?_⟩
  rw [((build_standard_relocated hzero ⟨"c"⟩ square (.interval 0 5)).2.2 2).1,
    build_standard (f := square) rfl]
  exact congrArg Except.error (Label.code_attach _ _)

omit [One α] [Add α] in
/-- A function in a set, not broadcast, is built into one constraint. -/
theorem buildForm_membership (registry : Registry α) (f : Function α) (s : ConstraintSet α) :
    registry.buildForm l (.membership f s false) = .single <$> registry.build l f s := by
  cases f <;> cases s <;> rfl

omit [One α] [Add α] in
/-- A scalar function between two constants, not broadcast, is built in their interval. -/
theorem buildForm_interval (registry : Registry α) (f : Function α) (lower upper : α) :
    registry.buildForm l (.ranged (.scalar lower) f (.scalar upper) false) =
      .single <$> registry.build l f (.scalar (.interval lower upper)) := by
  cases f <;> rfl

end Registry

/-! ## Element by element -/

namespace Relation

variable [Neg α] [Mul α] [Coefficient α]

/-- The constraints of a relation: its canonical form, built by the standard registry. -/
def compile (l : Label) (r : Relation α) : Except Error (ConstraintGroup α) := do
  Registry.standard.buildForm l (← r.canonicalize l)

/-- The relation is compiled as its elements are: into the constraints of all of them, in their
order, or into the error of the first one that has an error. -/
def CompilesAs (l : Label) (r : Relation α) (elements : List (Relation α)) : Prop :=
  (∃ cs, List.Forall₂ (fun e c => e.compile l = .ok (.single c)) elements cs ∧
      r.compile l = .ok (.broadcast cs)) ∨
    ∃ before e after err, elements = before ++ e :: after ∧
      (∀ b ∈ before, ∃ c, b.compile l = .ok (.single c)) ∧
        e.compile l = .error err ∧ r.compile l = .error err

variable {l : Label} {r : Relation α}

theorem compile_of_canonicalForm {form : CanonicalForm α} (h : r.canonicalForm = .ok form) :
    r.compile l = Registry.standard.buildForm l form := by
  rw [compile, canonicalize, h]
  rfl

/-- A broadcast is compiled as its elements are, when it builds them one after the other and each is
compiled as it builds it. -/
theorem compilesAs_of_mapM {β : Type} (xs : List β) (build : β → Except Error (Constraint α))
    {elements : List (Relation α)} (hr : r.compile l = .broadcast <$> xs.mapM build)
    (helements : List.Forall₂ (fun e x => e.compile l = .single <$> build x) elements xs) :
    r.CompilesAs l elements := by
  suffices h : (∃ cs, List.Forall₂ (fun e c => e.compile l = .ok (.single c)) elements cs ∧
        xs.mapM build = .ok cs) ∨
      ∃ before e after err, elements = before ++ e :: after ∧
        (∀ b ∈ before, ∃ c, b.compile l = .ok (.single c)) ∧
          e.compile l = .error err ∧ xs.mapM build = .error err by
    rcases h with ⟨cs, hcs, hbuild⟩ | ⟨before, e, after, err, hsplit, hbefore, he, hbuild⟩
    · exact .inl ⟨cs, hcs, by rw [hr, hbuild]; rfl⟩
    · exact .inr ⟨before, e, after, err, hsplit, hbefore, he, by rw [hr, hbuild]; rfl⟩
  -- along the elements, until the first that has an error
  clear hr
  induction helements with
  | nil => exact .inl ⟨[], .nil, rfl⟩
  | @cons e x elements xs he _ ih =>
    cases hx : build x with
    | error err =>
      rw [hx] at he
      refine .inr ⟨[], e, elements, err, rfl, by simp, he, ?_⟩
      rw [List.mapM_cons, hx]
      rfl
    | ok c =>
      rw [hx] at he
      rcases ih with ⟨cs, hcs, hbuild⟩ | ⟨before, e', after, err, rfl, hbefore, he', hbuild⟩
      · refine .inl ⟨c :: cs, .cons he hcs, ?_⟩
        rw [List.mapM_cons, hx, hbuild]
        rfl
      · refine .inr ⟨e :: before, e', after, err, rfl, ?_, he', ?_⟩
        · exact List.forall_mem_cons.2 ⟨⟨c, he⟩, hbefore⟩
        · rw [List.mapM_cons, hx, hbuild]
          rfl

/-! ### Comparisons -/

theorem compilesAs_oneSided {lhs rhs : Function α} {op : Comparison} {n : Nat}
    (hop : op ∈ [Comparison.le, .ge, .eq]) (hl : lhs.IsFlat) (hr : rhs.IsFlat)
    (harray : lhs.isArray = true ∨ rhs.isArray = true) (hln : ∀ k ∈ lhs.length?, k = n)
    (hrn : ∀ k ∈ rhs.length?, k = n) :
    (oneSided lhs op rhs true).CompilesAs l ((oneSided lhs op rhs true).elements n) := by
  obtain ⟨s, hs⟩ := Comparison.exists_zeroSet? (α := α) hop
  obtain ⟨ds, hform, hds⟩ := canonicalForm_comparison hs hl hr harray hln hrn
  refine compilesAs_of_mapM ds (fun d => Registry.standard.buildElement l d s) ?_ ?_
  · rw [compile_of_canonicalForm hform]
    rfl
  · -- the difference of a pair is relocated where the pair is on its own
    rw [elements, List.forall₂_map_left_iff]
    refine hds.imp fun p d hd => ?_
    rw [compile_of_canonicalForm (canonicalForm_scalars hd hs false),
      Registry.buildForm_membership]
    rfl

/-! ### Sets -/

theorem compilesAs_membership (hzero : SubZero α) (fs : List (Function α)) (s : ScalarSet α)
    (n : Nat) :
    (membership (.array fs) (.scalar s) true).CompilesAs l
      ((membership (.array fs) (.scalar s) true).elements n) := by
  refine compilesAs_of_mapM fs (fun f => Registry.standard.buildElement l f s) ?_ ?_
  · rw [compile_of_canonicalForm rfl]
    rfl
  · rw [elements, List.forall₂_map_left_iff, Function.spread, List.forall₂_same]
    intro f _
    rw [compile_of_canonicalForm rfl, Registry.buildForm_membership,
      Registry.buildElement_standard hzero]

/-! ### Ranges -/

/-- A scalar function between two constants is built as the element of a broadcast is. -/
theorem compile_between {op : Comparison} {f : Function α} {x y lower upper : α}
    (hf : f.isArray = false) (h : orientRange op op x y = some (lower, upper)) :
    (ranged (.constant x) op f op (.constant y) false).compile l =
      .single <$> Registry.standard.buildElement l f (.interval lower upper) := by
  rw [compile_of_canonicalForm (canonicalForm_ranged_scalar hf h), Registry.buildForm_interval,
    Registry.buildElement, Function.relocate_scalar hf rfl]
  rfl

theorem compilesAs_ranged (hzero : SubZero α) (lb ub : Bound α) {op : Comparison}
    {fs : List (Function α)} (hop : op ∈ [Comparison.le, .ge]) (hfs : (Function.array fs).IsFlat)
    (hlb : ∀ k ∈ lb.length?, k = fs.length) (hub : ∀ k ∈ ub.length?, k = fs.length) :
    (ranged lb.toFunction op (.array fs) op ub.toFunction true).CompilesAs l
      ((ranged lb.toFunction op (.array fs) op ub.toFunction true).elements fs.length) := by
  obtain ⟨lower, upper, horient⟩ := exists_orientRange lb ub hop
  refine compilesAs_of_mapM fs.zipIdx (fun p => do
    Registry.standard.buildElement l p.1 (← Registry.rangeAt l lower upper p.2)) ?_ ?_
  · rw [compile_of_canonicalForm (canonicalForm_range hzero horient hlb hub)]
    rfl
  · rw [elements, List.forall₂_map_left_iff]
    refine (Bound.forall₂_zip_spread hlb hub).imp fun t p h => ?_
    obtain ⟨hmem, x, y, hx, hy, rfl⟩ := h
    obtain ⟨lo, up, horient', hlo, hup⟩ := orientRange_at horient hx hy
    rw [compile_between (hfs p.1 hmem) horient']
    simp only [Registry.rangeAt, hlo, hup]
    rfl

/-! ### All broadcasts -/

theorem compilesAs_elements (hzero : SubZero α) {n : Nat} (hr : r.Elementwise)
    (hlengths : ∀ k ∈ r.lengths, k = n) : r.CompilesAs l (r.elements n) := by
  cases hr with
  | oneSided hop hl hr harray =>
    exact compilesAs_oneSided hop hl hr harray
      (fun k hk => hlengths k (mem_lengths_oneSided.2 (.inl hk)))
      fun k hk => hlengths k (mem_lengths_oneSided.2 (.inr hk))
  | @ranged lb ub op fs hop hfs =>
    obtain rfl : fs.length = n := hlengths _ (mem_lengths_ranged.2 (.inr (.inl rfl)))
    refine compilesAs_ranged hzero lb ub hop hfs (fun k hk => ?_) fun k hk => ?_
    · exact hlengths k (mem_lengths_ranged.2 (.inl (lb.length?_toFunction ▸ hk)))
    · exact hlengths k (mem_lengths_ranged.2 (.inr (.inr (ub.length?_toFunction ▸ hk))))
  | membership s _ => exact compilesAs_membership hzero _ s n

end Relation

/-! ## Broadcasts of models -/

theorem subZero_float : SubZero Float := Binary64.sub_zero

/-- A broadcast equals its elements. Where its arrays are of one length `n`, it is compiled into the
constraints of its `n` elements, each compiled as a relation of its own, or into the error of the
first element that has one; where two lengths differ it has no canonical form. -/
theorem Relation.broadcast_compiles_elementwise (l : Label) {r : Relation Float}
    (hr : r.Elementwise) :
    (∀ n, (∀ k ∈ r.lengths, k = n) →
        (r.elements n).length = n ∧ r.CompilesAs l (r.elements n)) ∧
      ∀ m ∈ r.lengths, ∀ n ∈ r.lengths, m ≠ n → ∃ e, r.canonicalize l = .error e ∧
        e.kind = .specification ∧ e.code = .mismatchedDimensions := by
  constructor
  · intro n hlengths
    exact ⟨length_elements hr hlengths, compilesAs_elements subZero_float hr hlengths⟩
  · intro m hm n hn hne
    obtain ⟨e, he, hcode⟩ := canonicalForm_of_lengths_ne hr hm hn hne
    exact ⟨l.report e, by rw [canonicalize, he]; rfl, rfl, hcode⟩

/-- A range with a bound for each element, one of them quadratic, and two arrays that do not fit. -/
theorem Relation.broadcast_compiles_elementwise_range :
    let x : VarRef := ⟨1, 0⟩
    let square : Function Float := .quadratic ⟨.zero, [((x, x), 1.0)]⟩
    let r : Relation Float := .ranged (.array [.constant 0.0, .constant 1.0]) .le
      (.array [.var x, square]) .le (.constant 5.0) true
    let unequal : Relation Float := .oneSided (.array [.var x, square]) .eq (.array [.var x]) true
    r.CompilesAs ⟨"c"⟩ [.ranged (.constant 0.0) .le (.var x) .le (.constant 5.0) false,
        .ranged (.constant 1.0) .le square .le (.constant 5.0) false] ∧
      ∃ e, unequal.canonicalize ⟨"c"⟩ = .error e ∧ e.kind = .specification ∧
        e.code = .mismatchedDimensions := by
  intro x square r unequal
  have hflat : (Function.array [.var x, square]).IsFlat := by
    simp [Function.IsFlat, Function.isArray, square]
  constructor
  · have hr : r.Elementwise := .ranged (.array [0.0, 1.0]) (.scalar 5.0) (by decide) hflat
    exact ((broadcast_compiles_elementwise ⟨"c"⟩ hr).1 2 (by decide)).2
  · have hunequal : unequal.Elementwise :=
      .oneSided (by decide) hflat (by simp [Function.IsFlat, Function.isArray]) (.inl rfl)
    exact (broadcast_compiles_elementwise ⟨"c"⟩ hunequal).2 2 (by decide) 1 (by decide) (by decide)

end AlgebraicModel
