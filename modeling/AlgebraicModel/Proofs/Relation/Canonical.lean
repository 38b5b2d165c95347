import AlgebraicModel.Proofs.Outcome
import AlgebraicModel.Proofs.Relation.Meaning
import AlgebraicModel.Proofs.Relation.Difference
import Mathlib.Data.List.Zip

/-!
# Canonical forms mean the same

Bringing a relation into canonical form keeps its meaning (`Relation.holds_canonicalForm`). A
comparison becomes membership of the difference of its sides, whose elements lie in the set around
zero exactly when those of the sides compare (`Function.in_difference`). A double comparison becomes
two bounds, whichever way its operators point (`Function.compares_orientRange`). Taking a constant
over into a set or into bounds moves both by the same amount (`Function.in_relocate`).
-/

set_option autoImplicit false

namespace AlgebraicModel

open Outcome

variable {α : Type} [Field α]

namespace Bound

theorem at?_shift (b : Bound α) (c : α) (i : Nat) :
    (b.shift c).at? i = (b.at? i).map (· - c) := by
  cases b with
  | scalar x => rfl
  | array xs => exact List.getElem?_map

end Bound

namespace Function

variable {ρ : Assignment α} {broadcast : Bool}

/-! ## Relocation -/

/-- The constant and the rest of a function make up its value. -/
theorem value?_withoutAdditive {f : Function α} {y : α} (h : f.value? ρ = some y) :
    ∃ z, f.withoutAdditive.value? ρ = some z ∧ z + f.additive = y := by
  cases f with
  | constant c =>
    cases h
    refine ⟨0, ?_, zero_add _⟩
    rw [withoutAdditive, value?, Affine.value_zero]
  | var v =>
    cases h
    exact ⟨ρ v, rfl, add_zero _⟩
  | affine f =>
    cases h
    exact ⟨_, rfl, Affine.value_setConstant_zero ρ f⟩
  | quadratic f =>
    cases h
    exact ⟨_, rfl, Quadratic.value_setConstant_zero ρ f⟩
  | array fs => cases h

/-! ## Meaning -/

variable [LinearOrder α]

section Sets

variable [IsStrictOrderedRing α]

/-- Taking the constant over into the set changes nothing about membership. -/
theorem in_relocate (ρ : Assignment α) (broadcast : Bool) (f : Function α) (s : ScalarSet α) :
    (f.relocate s).1.In ρ (f.relocate s).2 broadcast ↔ f.In ρ s broadcast := by
  cases hf : f.isArray with
  | true =>
    cases f with
    -- an array keeps its constants for its elements
    | array fs => rw [relocate_array]
    | _ => cases hf
  | false =>
    cases hs : s.isIntegrality with
    -- a set of integers takes no constant over
    | true => rw [relocate_integrality hs]
    | false =>
      -- the constant leaves the value and the set by the same amount
      obtain ⟨y, hy⟩ := exists_value ρ hf
      obtain ⟨z, hz, rfl⟩ := value?_withoutAdditive hy
      rw [relocate_scalar hf hs, in_scalar_iff hz, in_scalar_iff hy, ScalarSet.contains_shift hs]

variable {op : Comparison} {s : ScalarSet α}

theorem in_scalarMinus (hs : op.zeroSet? = some s) {l r f : Function α}
    (h : scalarMinus l r = .ok f) : f.In ρ s broadcast ↔ l.Compares ρ op broadcast r := by
  unfold scalarMinus at h
  split at h
  · rename_i f' hf
    cases h
    obtain ⟨a, b, ha, hb, hab⟩ := value?_minus? ρ hf
    rw [in_scalar_iff hab, compares_scalars_iff ha hb, Comparison.contains_zeroSet hs]
  · cases h

/-- A scalar side less each element: the differences lie in the set exactly when the scalar compares
with every element. -/
theorem in_minusEach (hs : op.zeroSet? = some s) {l : Function α} (hl : l.isArray = false)
    (r : Function α) :
    ∀ f, minusEach l r = .ok f → (f.In ρ s true ↔ l.Compares ρ op true r) := by
  induction r using scalar_or_array_induction with
  | scalar r hr =>
    intro f h
    rw [minusEach_scalar l hr] at h
    exact in_scalarMinus hs h
  | array rs ih =>
    intro f h
    rw [minusEach, minusAll_eq_mapM] at h
    obtain ⟨fs, hfs, hf⟩ := bind_eq_ok_iff.1 h
    cases hf
    rw [in_array_iff, compares_scalarWithArray_iff hl]
    exact and_congr_right fun _ => forall_mem_iff_of_mapM hfs ih

/-- A difference lies in the set around zero of a comparison exactly when the sides compare. -/
theorem in_difference (hs : op.zeroSet? = some s) (l : Function α) :
    ∀ (broadcast : Bool) (r f : Function α), difference broadcast l r = .ok f →
      (f.In ρ s broadcast ↔ l.Compares ρ op broadcast r) := by
  induction l using scalar_or_array_induction with
  | scalar l hl =>
    intro broadcast r f h
    cases r with
    | array rs =>
      -- the left side serves every element of the right one
      rw [difference_scalarWithArray rs hl] at h
      cases broadcast with
      | false => cases h
      | true => exact in_minusEach hs hl (array rs) f h
    | _ =>
      rw [difference_scalars hl rfl] at h
      exact in_scalarMinus hs h
  | array ls ih =>
    intro broadcast r f h
    cases hr : r.isArray with
    | false =>
      -- the right side serves every element of the left one
      rw [difference_arrayWithScalar ls hr] at h
      cases broadcast with
      | false => cases h
      | true =>
        obtain ⟨fs, hfs, rfl⟩ := map_eq_ok_iff.1 h
        rw [eachMinus_eq_mapM] at hfs
        rw [in_array_iff, compares_arrayWithScalar_iff hr]
        exact and_congr_right fun _ =>
          forall_mem_iff_of_mapM hfs fun l hl f hf => ih l hl true r f hf
    | true =>
      cases r with
      | array rs =>
        rw [difference] at h
        split at h
        · rename_i hlen
          obtain ⟨fs, hfs, hf⟩ := bind_eq_ok_iff.1 h
          cases hf
          rw [in_array_iff, compares_arrays_iff]
          -- Without a broadcast neither side says anything, so only a broadcast is compared.
          refine and_congr_right fun hb => ?_
          subst hb
          rw [differences_eq_mapM] at hfs
          rw [and_iff_right hlen]
          exact forall_mem_iff_of_mapM hfs fun p hp f hf =>
            ih p.1 (List.of_mem_zip hp).1 true p.2 f hf
        · cases h
      | _ => cases hr

end Sets

/-! ## Double comparisons -/

theorem compares_flip {op : Comparison} (l : Function α) :
    ∀ (broadcast : Bool) (r : Function α),
      r.Compares ρ op.flip broadcast l ↔ l.Compares ρ op broadcast r := by
  induction l using scalar_or_array_induction with
  | scalar l hl =>
    obtain ⟨a, ha⟩ := exists_value ρ hl
    intro broadcast r
    induction r using scalar_or_array_induction generalizing broadcast with
    | scalar r hr =>
      obtain ⟨b, hb⟩ := exists_value ρ hr
      rw [compares_scalars_iff hb ha, compares_scalars_iff ha hb, Comparison.holds_flip]
    | array rs ih =>
      rw [compares_arrayWithScalar_iff hl, compares_scalarWithArray_iff hl]
      exact and_congr_right fun _ => forall₂_congr fun r hr => ih r hr true
  | array ls ih =>
    intro broadcast r
    cases hr : r.isArray with
    | false =>
      rw [compares_arrayWithScalar_iff hr, compares_scalarWithArray_iff hr]
      exact and_congr_right fun _ => forall₂_congr fun l hl => ih l hl true r
    | true =>
      cases r with
      | array rs =>
        rw [compares_arrays_iff, compares_arrays_iff, ← List.zip_swap ls rs, List.forall_mem_map]
        refine and_congr_right fun _ => and_congr eq_comm (forall₂_congr fun p hp => ?_)
        exact ih p.1 (List.of_mem_zip hp).1 true p.2
      | _ => cases hr

/-- Both directions of a double comparison bound the function from below and from above. -/
theorem compares_orientRange {op₁ op₂ : Comparison} {lb ub lower upper : Function α}
    (h : orientRange op₁ op₂ lb ub = some (lower, upper)) (mid : Function α) :
    lb.Compares ρ op₁ broadcast mid ∧ mid.Compares ρ op₂ broadcast ub ↔
      lower.Compares ρ .le broadcast mid ∧ upper.Compares ρ .ge broadcast mid := by
  unfold orientRange at h
  split at h
  · -- lower bound on the left
    cases h
    exact and_congr_right fun _ => (compares_flip mid broadcast ub).symm
  · cases h
    -- lower bound on the right
    rw [and_comm]
    exact and_congr_left fun _ => (compares_flip mid broadcast ub).symm
  · cases h

/-- To lie in an interval is to compare with both of its ends. -/
theorem in_interval_iff (lower upper : α) (f : Function α) :
    ∀ broadcast, f.In ρ (.interval lower upper) broadcast ↔
      (constant lower).Compares ρ .le broadcast f ∧
        (constant upper).Compares ρ .ge broadcast f := by
  induction f using scalar_or_array_induction with
  | scalar f hf =>
    intro broadcast
    obtain ⟨y, hy⟩ := exists_value ρ hf
    rw [in_scalar_iff hy, compares_scalars_iff rfl hy, compares_scalars_iff rfl hy]
    exact Iff.rfl
  | array fs ih =>
    intro broadcast
    rw [in_array_iff, compares_scalarWithArray_iff rfl, compares_scalarWithArray_iff rfl,
      ← and_and_left, ← forall₂_and]
    exact and_congr_right fun _ => forall₂_congr fun f hf => ih f hf true

/-! ## Bounds -/

/-- A property of the pairs of two lists of one length, said of the second list and its places. -/
theorem forall_mem_zip_iff {β γ : Type} {xs : List β} {ys : List γ} {P : β → γ → Prop}
    (hlen : xs.length = ys.length) :
    (∀ p ∈ xs.zip ys, P p.1 p.2) ↔ ∀ p ∈ ys.zipIdx, ∃ x, xs[p.2]? = some x ∧ P x p.1 := by
  constructor
  · -- the place of an element is that of its partner
    intro h p hp
    have hy := List.mem_zipIdx_iff_getElem?.1 hp
    obtain ⟨hlt, -⟩ := List.getElem?_eq_some_iff.1 hy
    have hx : xs[p.2]? = some (xs.get ⟨p.2, hlen ▸ hlt⟩) := List.getElem?_eq_getElem _
    refine ⟨_, hx, h (_, p.1) ?_⟩
    exact List.mem_iff_getElem?.2 ⟨p.2, List.getElem?_zip_eq_some.2 ⟨hx, hy⟩⟩
  · intro h p hp
    obtain ⟨i, hi⟩ := List.mem_iff_getElem?.1 hp
    obtain ⟨hx, hy⟩ := List.getElem?_zip_eq_some.1 hi
    obtain ⟨x, hx', hP⟩ := h (p.2, i) (List.mem_zipIdx_iff_getElem?.2 hy)
    rw [hx] at hx'
    cases hx'
    exact hP

/-- An end of a range compares with an array through the bound that it gives to each element. -/
theorem compares_array_iff_bound {op : Comparison} {which : RangeEnd} {g : Function α} {b : Bound α}
    {fs : List (Function α)} (hb : g.toBound which broadcast = .ok b)
    (hlen : b.checkLength fs.length = .ok ()) :
    g.Compares ρ op broadcast (array fs) ↔ broadcast = true ∧ ∀ p ∈ fs.zipIdx, ∃ c,
      b.at? p.2 = some c ∧ (constant c).Compares ρ op true p.1 := by
  rcases toBound_cases hb with ⟨c, rfl, rfl⟩ | ⟨cs, rfl, rfl, rfl⟩
  · -- one constant bounds all elements
    rw [compares_scalarWithArray_iff rfl]
    refine and_congr_right fun _ => ?_
    simp only [Bound.at?, Option.some.injEq, exists_eq_left']
    constructor
    · intro h p hp
      exact h p.1 (List.mem_of_getElem? (List.mem_zipIdx_iff_getElem?.1 hp))
    · intro h f hf
      obtain ⟨i, hi⟩ := List.mem_iff_getElem?.1 hf
      exact h (f, i) (List.mem_zipIdx_iff_getElem?.2 hi)
  · -- each element has a constant of its own
    have hcs : cs.length = fs.length := by
      by_contra hne
      simp [Bound.checkLength, Bound.length?, hne] at hlen
    rw [compares_arrays_iff, List.length_map, and_iff_right hcs]
    refine and_congr_right fun _ => ?_
    have hlen' : (cs.map constant).length = fs.length := by simpa using hcs
    refine (forall_mem_zip_iff (P := Compares ρ op true) hlen').trans ?_
    refine forall₂_congr fun p _ => ?_
    simp [Bound.at?]

theorem compares_scalar_iff_bound {op : Comparison} {which : RangeEnd} {g f : Function α}
    {b : Bound α} (hb : g.toBound which broadcast = .ok b) (hlen : b.length? = none) :
    g.Compares ρ op broadcast f ↔
      ∃ c, b.at? 0 = some c ∧ (constant c).Compares ρ op broadcast f := by
  rcases toBound_cases hb with ⟨c, rfl, rfl⟩ | ⟨cs, rfl, rfl, rfl⟩
  · simp [Bound.at?]
  · cases hlen

theorem between_scalar_iff {lb ub : Bound α} {f : Function α} (hf : f.isArray = false) :
    f.Between ρ lb ub broadcast ↔ ∃ lower upper,
      lb.at? 0 = some lower ∧ ub.at? 0 = some upper ∧ f.In ρ (.interval lower upper) broadcast := by
  cases f with
  | array fs => cases hf
  | _ => exact Iff.rfl

/-- A function lies between two bounds exactly when it compares with both ends of the range. -/
theorem between_iff_compares {lower upper f : Function α} {lb ub : Bound α}
    (hlb : lower.toBound .lower broadcast = .ok lb) (hub : upper.toBound .upper broadcast = .ok ub)
    (hlen : f.checkBounds lb ub = .ok ()) :
    f.Between ρ lb ub broadcast ↔
      lower.Compares ρ .le broadcast f ∧ upper.Compares ρ .ge broadcast f := by
  cases hf : f.isArray with
  | true =>
    cases f with
    | array fs =>
      obtain ⟨⟨⟩, hl, hu⟩ := bind_eq_ok_iff.1 hlen
      rw [compares_array_iff_bound hlb hl, compares_array_iff_bound hub hu, ← and_and_left,
        ← forall₂_and, Between]
      refine and_congr_right fun _ => forall₂_congr fun p _ => ?_
      simp only [in_interval_iff]
      grind
    | _ => cases hf
  | false =>
    have hscalar : lb.length? = none ∧ ub.length? = none := by
      cases f with
      | array fs => cases hf
      | _ => simpa [checkBounds] using hlen
    rw [between_scalar_iff hf, compares_scalar_iff_bound hlb hscalar.1,
      compares_scalar_iff_bound hub hscalar.2]
    simp only [in_interval_iff]
    grind

/-- Moving the bounds along with the constant changes nothing. -/
theorem between_relocate [IsStrictOrderedRing α] (f : Function α) (lb ub : Bound α) :
    (f.relocate (.interval 0 0)).1.Between ρ (lb.shift f.additive) (ub.shift f.additive)
      broadcast ↔ f.Between ρ lb ub broadcast := by
  cases hf : f.isArray with
  | true =>
    cases f with
    -- an array has no constant, so nothing moves
    | array fs => rw [relocate_array, additive, Bound.shift_zero sub_zero, Bound.shift_zero sub_zero]
    | _ => cases hf
  | false =>
    have hf' : f.withoutAdditive.isArray = false := by
      obtain ⟨y, hy⟩ := exists_value (fun _ => (0 : α)) hf
      obtain ⟨z, hz, -⟩ := value?_withoutAdditive hy
      exact isArray_of_value? _ hz
    -- a function between bounds is one in an interval, whose two ends move
    have hin : ∀ lower upper, f.withoutAdditive.In ρ
        (.interval (lower - f.additive) (upper - f.additive)) broadcast ↔
          f.In ρ (.interval lower upper) broadcast := by
      intro lower upper
      have h := in_relocate ρ broadcast f (.interval lower upper)
      rwa [relocate_scalar hf rfl] at h
    rw [relocate_scalar hf rfl, between_scalar_iff hf', between_scalar_iff hf]
    simp [Bound.at?_shift, hin]

end Function

namespace Relation

variable [LinearOrder α] [IsStrictOrderedRing α] {ρ : Assignment α}

/-- The canonical form of a relation holds exactly when the relation does. -/
theorem holds_canonicalForm {r : Relation α} {form : CanonicalForm α}
    (h : r.canonicalForm = .ok form) : form.Holds ρ ↔ r.Holds ρ := by
  cases r with
  | oneSided lhs op rhs broadcast =>
    rw [canonicalForm] at h
    split at h
    · cases h
    · rename_i s hs
      obtain ⟨f, hf, h⟩ := bind_eq_ok_iff.1 h
      cases h
      calc (f.relocate s).1.In ρ (f.relocate s).2 broadcast
          ↔ f.In ρ s broadcast := Function.in_relocate ρ broadcast f s
        _ ↔ lhs.Compares ρ op broadcast rhs := Function.in_difference hs lhs broadcast rhs f hf
  | ranged lb op₁ mid op₂ ub broadcast =>
    rw [canonicalForm] at h
    split at h
    · cases h
    · rename_i lower upper horient
      obtain ⟨lower', hlower, h⟩ := bind_eq_ok_iff.1 h
      obtain ⟨upper', hupper, h⟩ := bind_eq_ok_iff.1 h
      obtain ⟨⟨⟩, hlen, h⟩ := bind_eq_ok_iff.1 h
      cases h
      calc (mid.relocate (.interval 0 0)).1.Between ρ (lower'.shift mid.additive)
            (upper'.shift mid.additive) broadcast
          ↔ mid.Between ρ lower' upper' broadcast := Function.between_relocate mid lower' upper'
        _ ↔ lower.Compares ρ .le broadcast mid ∧ upper.Compares ρ .ge broadcast mid :=
            Function.between_iff_compares hlower hupper hlen
        _ ↔ lb.Compares ρ op₁ broadcast mid ∧ mid.Compares ρ op₂ broadcast ub :=
            (Function.compares_orientRange horient mid).symm
  | membership f s broadcast =>
    cases h
    exact Iff.rfl

end Relation

end AlgebraicModel
