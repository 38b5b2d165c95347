import AlgebraicModel.Constraint.Registry
import AlgebraicModel.Proofs.Relation.Canonical
import Mathlib.Algebra.Order.Ring.Rat

/-!
# The standard registry builds what is meant

A constraint that the standard registry builds holds exactly when its function lies in its set
(`Registry.holds_build_scalar`), and the constraints built from a canonical form hold together
exactly when the form does (`Registry.groupMeans_buildForm`). With the canonical forms of relations
this gives the main result: the constraints built from a relation hold exactly when the relation
does (`Relation.built_constraints_mean_relation`).
-/

set_option autoImplicit false

namespace AlgebraicModel

open Outcome

variable {α : Type}

/-! ## The standard pairings -/

namespace Constraint

variable [Zero α] [One α] [Add α] [Sub α]

/-- The pairings that a constraint can come out of, and the way each of them is built. -/
theorem standard?_cases {fc : FunctionCategory} {sc : SetCategory}
    {way : Function α → ConstraintSet α → Except (DispatchError α) (Constraint α)}
    {f : Function α} {s : ConstraintSet α} {c : Constraint α} (h : standard? fc sc = some way)
    (hc : way f s = .ok c) :
    (fc = .var ∧ sc ≠ .vector ∧ way = ofVariable) ∨
      (sc ≠ .vector ∧ sc ≠ .integrality ∧ way = ofAffine) ∨
        (sc = .bound ∧ way = ofQuadratic) ∨
          (sc = .vector ∧ way = ofVariables) ∨ (sc = .vector ∧ way = ofAffineVector) := by
  -- the table is small: one case for each category of functions and of sets
  cases fc <;> cases sc <;> simp only [standard?, Option.some.injEq, reduceCtorEq] at h <;>
    subst h <;> simp_all

end Constraint

/-! ## What the builders mean -/

namespace Function

variable [Field α]

/-- Relocation leaves no constant behind. -/
theorem additive_of_relocate {f f' : Function α} {s s' : ScalarSet α} (hs : s.isIntegrality = false)
    (h : f.relocate s = (f', s')) : f'.additive = 0 := by
  cases f with
  | array fs =>
    cases h
    rfl
  | _ =>
    rw [relocate_scalar rfl hs] at h
    cases h
    rfl

/-- Widening to an affine function keeps the constant. -/
theorem constant_of_toAffine? {f : Function α} {g : Affine α} (h : f.toAffine? = some g) :
    g.constant = f.additive := by
  cases f with
  | var v =>
    cases h
    simp [Affine.ofVar, Affine.zero, Affine.ofConstant, Affine.addTerm, additive]
  | quadratic f => cases h
  | array fs => cases h
  | _ =>
    cases h
    rfl

variable {ρ : Assignment α}

theorem mapM_value?_of_asVariable {fs : List (Function α)} {vs : List VarRef}
    (h : fs.mapM Constraint.asVariable = .ok vs) : fs.mapM (value? ρ) = some (vs.map ρ) := by
  have hf := mapM_eq_ok_iff.1 h
  clear h
  induction hf with
  | nil => rfl
  | @cons f v fs vs hv _ ih =>
    cases f with
    | var w =>
      cases hv
      rw [List.mapM_cons, ih]
      rfl
    | _ => cases hv

theorem mapM_value?_of_asAffine {fs : List (Function α)} {gs : List (Affine α)}
    (h : fs.mapM Constraint.asAffine = .ok gs) :
    fs.mapM (value? ρ) = some (gs.map (·.value ρ)) := by
  have hf := mapM_eq_ok_iff.1 h
  clear h
  induction hf with
  | nil => rfl
  | @cons f g fs gs hg _ ih =>
    unfold Constraint.asAffine at hg
    split at hg
    · rename_i g' hg'
      cases hg
      rw [List.mapM_cons, ih, value?_of_toAffine? ρ hg']
      rfl
    · cases hg

end Function

namespace Constraint

variable [Field α] [LinearOrder α] {ρ : Assignment α} {broadcast : Bool} {f : Function α}
  {c : Constraint α}

theorem holds_ofVariable {s : ScalarSet α} (h : ofVariable f (.scalar s) = .ok c) :
    (c.Holds ρ ↔ f.In ρ s broadcast) ∧ c.func.additive = 0 := by
  cases f with
  | var v =>
    cases h
    exact ⟨(Function.in_scalar_iff rfl).symm, rfl⟩
  | _ => cases h

variable [IsStrictOrderedRing α]

theorem holds_ofAffine {s : ScalarSet α} (hs : s.isIntegrality = false)
    (h : ofAffine f (.scalar s) = .ok c) :
    (c.Holds ρ ↔ f.In ρ s broadcast) ∧ c.func.additive = 0 := by
  have hin := Function.in_relocate ρ broadcast f s
  rcases hr : f.relocate s with ⟨f', s'⟩
  rw [hr] at hin
  simp only [ofAffine, hr] at h
  split at h
  · rename_i g hg
    cases h
    constructor
    · -- widening keeps the value, and relocation keeps membership
      rw [← hin, Function.in_scalar_iff (Function.value?_of_toAffine? ρ hg)]
      rfl
    · exact (Function.constant_of_toAffine? hg).trans (Function.additive_of_relocate hs hr)
  · cases h

theorem holds_ofQuadratic {s : ScalarSet α} (hs : s.isIntegrality = false)
    (h : ofQuadratic f (.scalar s) = .ok c) :
    (c.Holds ρ ↔ f.In ρ s broadcast) ∧ c.func.additive = 0 := by
  have hin := Function.in_relocate ρ broadcast f s
  rcases hr : f.relocate s with ⟨f', s'⟩
  rw [hr] at hin
  simp only [ofQuadratic, hr] at h
  split at h
  · rename_i q
    cases h
    constructor
    · rw [← hin, Function.in_scalar_iff rfl]
      rfl
    · exact Function.additive_of_relocate hs hr
  · cases h

omit [IsStrictOrderedRing α] in
theorem holds_ofVariables {s : VectorSet} (h : ofVariables f (.vector s) = .ok c) :
    (c.Holds ρ ↔ f.InVector ρ s) ∧ c.set = .vector s := by
  cases f with
  | array fs =>
    obtain ⟨⟨⟩, -, h⟩ := bind_eq_ok_iff.1 h
    obtain ⟨vs, hvs, h⟩ := bind_eq_ok_iff.1 h
    cases h
    have hvalues := Function.mapM_value?_of_asVariable (ρ := ρ) hvs
    exact ⟨(Function.inVector_array_iff hvalues).symm, rfl⟩
  | _ => cases h

omit [IsStrictOrderedRing α] in
theorem holds_ofAffineVector {s : VectorSet} (h : ofAffineVector f (.vector s) = .ok c) :
    (c.Holds ρ ↔ f.InVector ρ s) ∧ c.set = .vector s := by
  cases f with
  | array fs =>
    obtain ⟨⟨⟩, -, h⟩ := bind_eq_ok_iff.1 h
    obtain ⟨gs, hgs, h⟩ := bind_eq_ok_iff.1 h
    cases h
    have hvalues := Function.mapM_value?_of_asAffine (ρ := ρ) hgs
    exact ⟨(Function.inVector_array_iff hvalues).symm, rfl⟩
  | _ => cases h

end Constraint

/-! ## Building -/

namespace ConstraintSet

theorem isIntegrality_of_category {s : ScalarSet α}
    (h : (scalar s).category ≠ .integrality) : s.isIntegrality = false := by
  cases s with
  | integer => exact absurd rfl h
  | zeroOne => exact absurd rfl h
  | _ => rfl

theorem scalar_category_ne_vector (s : ScalarSet α) : (scalar s).category ≠ .vector := by
  cases s <;> exact fun h => by cases h

end ConstraintSet

namespace Registry

variable [Coefficient α]

/-- A constraint is built by a registered way that succeeds. -/
theorem build_standard_eq_ok_iff [Zero α] [One α] [Add α] [Sub α] {l : Label} {f : Function α}
    {s : ConstraintSet α} {c : Constraint α} :
    (standard : Registry α).build l f s = .ok c ↔
      ∃ way : Function α → ConstraintSet α → Except (DispatchError α) (Constraint α),
        Constraint.standard? f.category s.category = some way ∧ way f s = .ok c := by
  simp only [build, standard]
  cases Constraint.standard? (α := α) f.category s.category with
  | none =>
    constructor
    · intro h
      cases h
    · rintro ⟨way, hway, -⟩
      cases hway
  | some way =>
    simp only [Option.map_some, unlabelled, mapError_eq_ok_iff, Option.some.injEq, exists_eq_left']

variable [Field α] [LinearOrder α] [IsStrictOrderedRing α] {ρ : Assignment α} {broadcast : Bool}
  {l : Label} {f : Function α} {c : Constraint α}

theorem holds_build_scalar (ρ : Assignment α) (broadcast : Bool) {s : ScalarSet α}
    (h : standard.build l f (.scalar s) = .ok c) :
    (c.Holds ρ ↔ f.In ρ s broadcast) ∧ c.func.additive = 0 := by
  obtain ⟨way, hway, hc⟩ := build_standard_eq_ok_iff.1 h
  rcases Constraint.standard?_cases hway hc with
    ⟨-, -, rfl⟩ | ⟨-, hs, rfl⟩ | ⟨hs, rfl⟩ | ⟨hs, -⟩ | ⟨hs, -⟩
  · exact Constraint.holds_ofVariable hc
  · exact Constraint.holds_ofAffine (ConstraintSet.isIntegrality_of_category hs) hc
  · refine Constraint.holds_ofQuadratic (ConstraintSet.isIntegrality_of_category ?_) hc
    rw [hs]
    exact fun h => by cases h
  · -- the other two ways are for sets of vectors
    exact absurd hs (ConstraintSet.scalar_category_ne_vector s)
  · exact absurd hs (ConstraintSet.scalar_category_ne_vector s)

omit [IsStrictOrderedRing α] in
theorem holds_build_vector {s : VectorSet} (h : standard.build l f (.vector s) = .ok c) :
    (c.Holds ρ ↔ f.InVector ρ s) ∧ c.set = .vector s := by
  obtain ⟨way, hway, hc⟩ := build_standard_eq_ok_iff.1 h
  rcases Constraint.standard?_cases hway hc with
    ⟨-, hs, -⟩ | ⟨hs, -⟩ | ⟨hs, -⟩ | ⟨-, rfl⟩ | ⟨-, rfl⟩
  · exact absurd rfl hs
  · exact absurd rfl hs
  · cases hs
  · exact Constraint.holds_ofVariables hc
  · exact Constraint.holds_ofAffineVector hc

theorem holds_buildElement (ρ : Assignment α) (broadcast : Bool) {s : ScalarSet α}
    (h : standard.buildElement l f s = .ok c) :
    (c.Holds ρ ↔ f.In ρ s broadcast) ∧ c.func.additive = 0 := by
  obtain ⟨hc, ha⟩ := holds_build_scalar ρ broadcast h
  exact ⟨hc.trans (Function.in_relocate ρ broadcast f s), ha⟩

omit [Field α] [LinearOrder α] [IsStrictOrderedRing α] in
theorem rangeAt_eq_ok_iff {lb ub : Bound α} {i : Nat} {s : ScalarSet α} :
    rangeAt l lb ub i = .ok s ↔
      ∃ lower upper, lb.at? i = some lower ∧ ub.at? i = some upper ∧ s = .interval lower upper := by
  unfold rangeAt
  split
  · rename_i lower upper hl hu
    rw [hl, hu]
    constructor
    · intro h
      cases h
      exact ⟨lower, upper, rfl, rfl, rfl⟩
    · rintro ⟨_, _, hl', hu', rfl⟩
      cases hl'
      cases hu'
      rfl
  · rename_i hnone
    constructor
    · intro h
      cases h
    · rintro ⟨lower, upper, hl, hu, -⟩
      exact absurd hu (hnone lower upper hl)

omit [IsStrictOrderedRing α] in
/-- A function built between its two bounds holds exactly when it lies between them. -/
theorem holds_of_rangeAt {lb ub : Bound α} {i : Nat} {s : ScalarSet α}
    (hs : rangeAt l lb ub i = .ok s) (hc : c.Holds ρ ↔ f.In ρ s broadcast) :
    c.Holds ρ ↔ ∃ lower upper, lb.at? i = some lower ∧ ub.at? i = some upper ∧
      f.In ρ (.interval lower upper) broadcast := by
  obtain ⟨lower, upper, hl, hu, rfl⟩ := rangeAt_eq_ok_iff.1 hs
  rw [hc, hl, hu]
  simp

/-! ## Groups -/

/-- The constraints of the group hold together exactly when `P` does, and none in a set of scalars
keeps a constant in its function. -/
def GroupMeans (ρ : Assignment α) (group : ConstraintGroup α) (P : Prop) : Prop :=
  ((∀ c ∈ group.toList, c.Holds ρ) ↔ P) ∧
    ∀ c ∈ group.toList, c.set.isScalar = true → c.func.additive = 0

omit [Coefficient α] [IsStrictOrderedRing α] in
theorem groupMeans_single {P : Prop} (hc : c.Holds ρ ↔ P)
    (ha : c.set.isScalar = true → c.func.additive = 0) : GroupMeans ρ (.single c) P := by
  unfold GroupMeans
  simp only [ConstraintGroup.toList, List.mem_singleton, forall_eq]
  exact ⟨hc, ha⟩

omit [Coefficient α] [IsStrictOrderedRing α] in
theorem groupMeans_broadcast {β : Type} {xs : List β} {g : β → Except Error (Constraint α)}
    {cs : List (Constraint α)} {Q : β → Prop} (hcs : xs.mapM g = .ok cs)
    (hg : ∀ x ∈ xs, ∀ c, g x = .ok c → (c.Holds ρ ↔ Q x) ∧ c.func.additive = 0) :
    GroupMeans ρ (.broadcast cs) (∀ x ∈ xs, Q x) :=
  ⟨forall_mem_iff_of_mapM hcs fun x hx c hc => (hg x hx c hc).1,
    forall_mem_of_mapM hcs fun x hx c hc _ => (hg x hx c hc).2⟩

/-- A broadcast into a set of scalars: every element is built on its own. -/
theorem groupMeans_elements {fs : List (Function α)} {s : ScalarSet α} {cs : List (Constraint α)}
    (hcs : (fs.mapM fun f => standard.buildElement l f s) = .ok cs) :
    GroupMeans ρ (.broadcast cs) ((Function.array fs).In ρ s true) := by
  have hin : (Function.array fs).In ρ s true ↔ ∀ f ∈ fs, f.In ρ s true :=
    Function.in_array_iff.trans (and_iff_right rfl)
  rw [hin]
  exact groupMeans_broadcast hcs fun f _ c hc => holds_buildElement ρ true hc

/-- One constraint for a function and its set. There is no broadcast into a set of vectors. -/
theorem groupMeans_built {s : ConstraintSet α}
    (hvector : ∀ v : VectorSet, s = .vector v → broadcast = false)
    (hc : standard.build l f s = .ok c) : GroupMeans ρ (.single c) (f.InSet ρ s broadcast) := by
  cases s with
  | scalar s =>
    obtain ⟨hholds, hadditive⟩ := holds_build_scalar ρ broadcast hc
    exact groupMeans_single hholds fun _ => hadditive
  | vector v =>
    obtain rfl := hvector v rfl
    obtain ⟨hholds, hset⟩ := holds_build_vector (ρ := ρ) hc
    refine groupMeans_single hholds fun hscalar => ?_
    rw [hset] at hscalar
    cases hscalar

/-- A broadcast between bounds: every element is built between the bounds of its place. -/
theorem groupMeans_elementsBetween {fs : List (Function α)} {lb ub : Bound α}
    {cs : List (Constraint α)}
    (hcs : (fs.zipIdx.mapM fun (f, i) => do
      standard.buildElement l f (← rangeAt l lb ub i)) = .ok cs) :
    GroupMeans ρ (.broadcast cs) ((Function.array fs).Between ρ lb ub true) := by
  have hbetween : (Function.array fs).Between ρ lb ub true ↔
      ∀ p ∈ fs.zipIdx, ∃ lower upper, lb.at? p.2 = some lower ∧ ub.at? p.2 = some upper ∧
        p.1.In ρ (.interval lower upper) true := and_iff_right rfl
  rw [hbetween]
  refine groupMeans_broadcast hcs fun p _ c hc => ?_
  obtain ⟨s, hs, hc⟩ := bind_eq_ok_iff.1 hc
  obtain ⟨hholds, hadditive⟩ := holds_buildElement ρ true hc
  exact ⟨holds_of_rangeAt hs hholds, hadditive⟩

/-- One constraint for a function between the bounds at place zero. -/
theorem groupMeans_builtBetween {lb ub : Bound α} {s : ScalarSet α}
    (hnot : ∀ fs, f = .array fs → broadcast = false) (hs : rangeAt l lb ub 0 = .ok s)
    (hc : standard.build l f (.scalar s) = .ok c) :
    GroupMeans ρ (.single c) (f.Between ρ lb ub broadcast) := by
  obtain ⟨hholds, hadditive⟩ := holds_build_scalar ρ broadcast hc
  refine groupMeans_single ((holds_of_rangeAt hs hholds).trans ?_) fun _ => hadditive
  cases f with
  | array fs =>
    -- without a broadcast an array neither has a value nor lies between bounds
    obtain rfl := hnot fs rfl
    simp [Function.Between, Function.in_array_iff]
  | _ => exact Iff.rfl

/-- The constraints built from a canonical form hold together exactly when the form does. -/
theorem groupMeans_buildForm {form : CanonicalForm α} {group : ConstraintGroup α}
    (h : standard.buildForm l form = .ok group) : GroupMeans ρ group (form.Holds ρ) := by
  unfold buildForm at h
  split at h
  · obtain ⟨cs, hcs, h⟩ := bind_eq_ok_iff.1 h
    cases h
    exact groupMeans_elements hcs
  · cases h
  · rename_i f s broadcast _ hvector
    obtain ⟨c, hc, h⟩ := bind_eq_ok_iff.1 h
    cases h
    exact groupMeans_built (fun v hv => Bool.eq_false_iff.mpr (hvector v hv)) hc
  · obtain ⟨cs, hcs, h⟩ := bind_eq_ok_iff.1 h
    cases h
    exact groupMeans_elementsBetween hcs
  · rename_i lb f ub broadcast hnot
    obtain ⟨s, hs, h⟩ := bind_eq_ok_iff.1 h
    obtain ⟨c, hc, h⟩ := bind_eq_ok_iff.1 h
    cases h
    exact groupMeans_builtBetween (fun fs hfs => Bool.eq_false_iff.mpr (hnot fs hfs)) hs hc

end Registry

/-! ## Relations -/

namespace Relation

variable [Field α]

variable [Coefficient α]

/-- A comparison of two functions that are no arrays, by one of the operators that describe a set,
is brought into canonical form and built. -/
theorem exists_built (l : Label) {lhs rhs : Function α} {op : Comparison} {s : ScalarSet α}
    (hl : lhs.isArray = false) (hr : rhs.isArray = false) (hs : op.zeroSet? = some s)
    (broadcast : Bool) :
    ∃ form group, (oneSided lhs op rhs broadcast).canonicalize l = .ok form ∧
      Registry.standard.buildForm l form = .ok group := by
  obtain ⟨f, hf⟩ := Function.exists_minus? hl hr
  have hform := canonicalForm_scalars hf hs broadcast
  suffices h : ∃ group, Registry.standard.buildForm l
      (.membership (f.relocate s).1 (.scalar (f.relocate s).2) broadcast) = .ok group by
    obtain ⟨group, hgroup⟩ := h
    exact ⟨_, group, mapError_eq_ok_iff.2 hform, hgroup⟩
  -- whatever shape the difference has, it is registered with each of the three sets
  rcases Function.minus?_cases hf with
    ⟨a, b, -, -, rfl⟩ | ⟨p, q, -, -, rfl⟩ | ⟨p, q, -, -, rfl⟩ <;>
    cases op <;> cases hs <;> exact ⟨_, rfl⟩

variable [LinearOrder α] [IsStrictOrderedRing α]

/-- Compilation of relations preserves meaning. The constraints that the standard registry builds
from a relation hold together exactly when the relation does, and the constants of their functions
have moved into their sets. A comparison of two functions that are no arrays is built whenever its
operator describes a set. -/
theorem built_constraints_mean_relation (l : Label) :
    (∀ (r : Relation α) (form : CanonicalForm α) (group : ConstraintGroup α),
      r.canonicalize l = .ok form → Registry.standard.buildForm l form = .ok group →
        (∀ ρ, (∀ c ∈ group.toList, c.Holds ρ) ↔ r.Holds ρ) ∧
          ∀ c ∈ group.toList, c.set.isScalar = true → c.func.additive = 0) ∧
      ∀ (lhs rhs : Function α) (op : Comparison) (broadcast : Bool),
        lhs.isArray = false → rhs.isArray = false → op ∈ [Comparison.le, .ge, .eq] →
          ∃ form group, (oneSided lhs op rhs broadcast).canonicalize l = .ok form ∧
            Registry.standard.buildForm l form = .ok group := by
  constructor
  · intro r form group hform hgroup
    have hcanonical := mapError_eq_ok_iff.1 hform
    constructor
    · intro ρ
      obtain ⟨hholds, -⟩ := Registry.groupMeans_buildForm (ρ := ρ) hgroup
      exact hholds.trans (holds_canonicalForm hcanonical)
    · -- what is said of the constants is the same under every assignment
      obtain ⟨-, hadditive⟩ := Registry.groupMeans_buildForm (ρ := fun _ => 0) hgroup
      exact hadditive
  · intro lhs rhs op broadcast hl hr hop
    have hset : ∃ s : ScalarSet α, op.zeroSet? = some s := by
      simp only [List.mem_cons, List.not_mem_nil, or_false] at hop
      rcases hop with rfl | rfl | rfl <;> exact ⟨_, rfl⟩
    obtain ⟨s, hs⟩ := hset
    exact exists_built l hl hr hs broadcast

/-- Rational coefficients, which are exact. -/
instance : Coefficient ℚ := ⟨toString, fun _ => false⟩

/-- A broadcast over an affine and a quadratic element, the right side serving both, and a
comparison of a quadratic function with a constant. -/
theorem built_constraints_mean_broadcast :
    let x : VarRef := ⟨1, 0⟩
    let y : VarRef := ⟨1, 1⟩
    let product : Function ℚ := .quadratic ⟨⟨[], 3⟩, [((x, y), 1)]⟩
    let r : Relation ℚ :=
      oneSided (.array [.affine ⟨[(x, 2)], 1⟩, product]) .ge (.affine ⟨[(y, 3)], -1⟩) true
    (∃ form group, r.canonicalize ⟨"c"⟩ = .ok form ∧
      Registry.standard.buildForm ⟨"c"⟩ form = .ok group ∧ group.toList.length = 2 ∧
        (∀ ρ, (∀ c ∈ group.toList, c.Holds ρ) ↔ r.Holds ρ) ∧
          ∀ c ∈ group.toList, c.set.isScalar = true → c.func.additive = 0) ∧
      ∃ form group, (oneSided product .le (.constant 5) false).canonicalize ⟨"c"⟩ = .ok form ∧
        Registry.standard.buildForm ⟨"c"⟩ form = .ok group :=
  ⟨⟨_, _, rfl, rfl, rfl, (built_constraints_mean_relation ⟨"c"⟩).1 _ _ _ rfl rfl⟩,
    (built_constraints_mean_relation ⟨"c"⟩).2 _ _ _ _ rfl rfl (by decide)⟩

end Relation

end AlgebraicModel
