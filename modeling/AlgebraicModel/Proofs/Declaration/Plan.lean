import AlgebraicModel.Declaration.Plan
import AlgebraicModel.Proofs.Expr.Names
import AlgebraicModel.Proofs.Outcome

/-!
# What a plan promises

Planning evaluates nothing, so what a population may rely on is what planning reads off the
declaration. A single element has no indices. An array, dense or over axes, has no condition and no
index set that depends on an index declared before it (`Declaration.IsArray`), and the index sets of
a dense array are written `1..N`.
-/

set_option autoImplicit false

namespace AlgebraicModel

namespace Declaration

/-- What makes the keys of a declaration the tuples of its index sets. -/
structure IsArray (d : Declaration) : Prop where
  indexed : d.indices ≠ []
  unconditional : d.filter = none
  independent : firstDependency? d.indexNames d.indexSets = none

/-- A dependency that is found is one between two dimensions of the declaration. -/
theorem firstDependency?_eq_none {d : Declaration} (h : d.dependency? = none) :
    firstDependency? d.indexNames d.indexSets = none := by
  cases hfirst : firstDependency? d.indexNames d.indexSets with
  | none => rfl
  | some found =>
    obtain ⟨i, j⟩ := found
    obtain ⟨hi, -, hj⟩ := lt_of_firstDependency? hfirst
    rw [indexSets, List.length_map] at hi
    rw [indexNames, List.length_map] at hj
    rw [dependency?, hfirst] at h
    simp [List.getElem?_eq_getElem hi, List.getElem?_eq_getElem hj] at h

theorem isArray_of_checkArray {d : Declaration} {kind : ContainerKind} (hindices : d.indices ≠ [])
    (h : d.checkArray kind = .ok ()) : d.IsArray := by
  rw [checkArray] at h
  split at h
  · cases h
  · rename_i hfilter
    cases hdep : d.dependency? with
    | some found =>
      rw [hdep] at h
      cases h
    | none => exact ⟨hindices, by simpa using hfilter, firstDependency?_eq_none hdep⟩

theorem isScalar_eq_false {d : Declaration} (h : d.indices ≠ []) : d.isScalar = false := by
  simpa [isScalar] using h

theorem representation_of_nil {d : Declaration} {r : Representation} (hindices : d.indices = [])
    (h : d.representation = .ok r) : r = .scalar := by
  have hscalar : d.isScalar = true := by simp [isScalar, hindices]
  rw [representation] at h
  cases hkind : d.kind <;> simp only [hkind, hscalar, if_true] at h
  case custom => cases h
  -- every other kind accepts a single element, unless there is a condition
  all_goals
    split at h
    · cases h
    · cases h
      rfl

/-- A single element has no condition. -/
theorem filter_eq_none_of_nil {d : Declaration} {r : Representation} (hindices : d.indices = [])
    (h : d.representation = .ok r) : d.filter = none := by
  have hscalar : d.isScalar = true := by simp [isScalar, hindices]
  rw [representation] at h
  cases hfilter : d.filter with
  | none => rfl
  | some condition =>
    -- with a condition every kind is refused
    cases hkind : d.kind <;> simp only [hkind, hscalar, hfilter, Option.isSome_some, if_true] at h <;>
      cases h

theorem representation_of_map {d : Declaration} (hindices : d.indices ≠ []) (hkind : d.kind = .map) :
    d.representation = .ok .map := by
  simp only [representation, hkind, isScalar_eq_false hindices]
  rfl

/-- The shape of a declaration that has a representation, by the kind that it asks for. -/
theorem representation_cases {d : Declaration} {r : Representation} (h : d.representation = .ok r) :
    (r = .scalar ∧ d.indices = []) ∨ (r = .dense ∧ d.IsArray ∧ d.allOneBased = true) ∨
      (r = .axis ∧ d.IsArray) ∨ r = .map := by
  by_cases hindices : d.indices = []
  · exact .inl ⟨representation_of_nil hindices h, hindices⟩
  · rw [representation] at h
    -- there are indices, so the kind that is asked for decides
    cases hkind : d.kind <;>
      simp only [hkind, isScalar_eq_false hindices, Bool.false_eq_true, if_false] at h
    case auto =>
      split at h
      · cases h
        exact .inr (.inr (.inr rfl))
      · -- neither a condition nor a dependency: an array is chosen
        rename_i hnone
        have hnone : d.filter = none ∧ d.dependency? = none := by simpa using hnone
        have harray : d.IsArray := ⟨hindices, hnone.1, firstDependency?_eq_none hnone.2⟩
        split at h
        · rename_i hone
          cases h
          exact .inr (.inl ⟨rfl, harray, hone⟩)
        · cases h
          exact .inr (.inr (.inl ⟨rfl, harray⟩))
    case dense =>
      obtain ⟨⟨⟩, hcheck, h⟩ := Outcome.bind_eq_ok_iff.mp h
      have harray := isArray_of_checkArray hindices hcheck
      split at h
      · cases h
      · rename_i hfind
        cases h
        -- no index set was found that is not written `1..N`
        refine .inr (.inl ⟨rfl, harray, ?_⟩)
        simpa [allOneBased, ← Option.ne_none_iff_isSome] using hfind
    case axis =>
      obtain ⟨⟨⟩, hcheck, h⟩ := Outcome.bind_eq_ok_iff.mp h
      cases h
      exact .inr (.inr (.inl ⟨rfl, isArray_of_checkArray hindices hcheck⟩))
    case map =>
      cases h
      exact .inr (.inr (.inr rfl))
    case custom => cases h

/-- A single element is what there is without indices. -/
theorem eq_scalar_iff {d : Declaration} {r : Representation} (h : d.representation = .ok r) :
    r = .scalar ↔ d.indices = [] := by
  constructor
  · rintro rfl
    rcases representation_cases h with ⟨-, hindices⟩ | ⟨hr, -⟩ | ⟨hr, -⟩ | hr
    · exact hindices
    · cases hr
    · cases hr
    · cases hr
  · intro hindices
    exact representation_of_nil hindices h

/-- A plan is the declaration with the representation chosen for it. -/
theorem plan_eq_ok_iff {l : Label} {d : Declaration} {p : Plan} :
    d.plan l = .ok p ↔ p.declaration = d ∧ d.representation = .ok p.representation := by
  rw [plan, Outcome.mapError_eq_ok_iff]
  constructor
  · intro h
    obtain ⟨r, hr, rfl⟩ := Outcome.map_eq_ok_iff.mp h
    exact ⟨rfl, hr⟩
  · rintro ⟨rfl, hr⟩
    rw [hr]
    rfl

end Declaration

end AlgebraicModel
