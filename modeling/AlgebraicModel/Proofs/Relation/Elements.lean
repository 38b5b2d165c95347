import AlgebraicModel.Proofs.Outcome
import AlgebraicModel.Proofs.Relation.Difference
import Mathlib.Data.List.Zip

/-!
# Relations element by element

A broadcast relation over arrays of scalar functions (`Relation.Elementwise`) has a relation of its
own for each element (`Relation.elements`), in which an array gives its element and a scalar itself.
This module says what the canonical form of such a relation is where its arrays are of one length:
the differences of the pairs of elements (`Relation.canonicalForm_comparison`), or the array between
its bounds (`Relation.canonicalForm_range`). Where two lengths differ there is none
(`Relation.canonicalForm_of_lengths_ne`).
-/

set_option autoImplicit false

namespace AlgebraicModel

open Outcome

variable {α : Type}

/-! ## Arrays and scalars as sides of a relation -/

namespace Function

/-- The function is scalar, or an array of scalar functions. -/
def IsFlat : Function α → Prop
  | array fs => ∀ f ∈ fs, f.isArray = false
  | _ => True

/-- The number of elements of an array. -/
def length? : Function α → Option Nat
  | array fs => some fs.length
  | _ => none

/-- What the function gives to each of `n` elements: an array its own, a scalar itself. -/
def spread (n : Nat) : Function α → List (Function α)
  | array fs => fs
  | f => List.replicate n f

theorem spread_scalar {f : Function α} (hf : f.isArray = false) (n : Nat) :
    f.spread n = List.replicate n f := by
  cases f with
  | array fs => cases hf
  | _ => rfl

theorem length_spread {f : Function α} {n : Nat} (h : ∀ k ∈ f.length?, k = n) :
    (f.spread n).length = n := by
  cases f with
  | array fs => exact h fs.length rfl
  | _ => exact List.length_replicate

theorem isArray_of_mem_spread {f g : Function α} {n : Nat} (hf : f.IsFlat) (hg : g ∈ f.spread n) :
    g.isArray = false := by
  cases f with
  | array fs => exact hf g hg
  | _ =>
    obtain rfl := List.eq_of_mem_replicate hg
    rfl

end Function

/-! ## Elements -/

namespace Relation

/-- The lengths of the arrays that the relation is over. -/
def lengths : Relation α → List Nat
  | oneSided lhs _ rhs _ => [lhs, rhs].filterMap Function.length?
  | ranged lb _ mid _ ub _ => [lb, mid, ub].filterMap Function.length?
  | membership f _ _ => [f].filterMap Function.length?

theorem mem_lengths_oneSided {lhs rhs : Function α} {op : Comparison} {broadcast : Bool} {k : Nat} :
    k ∈ (oneSided lhs op rhs broadcast).lengths ↔ k ∈ lhs.length? ∨ k ∈ rhs.length? := by
  simp only [lengths, List.mem_filterMap, List.mem_cons, List.not_mem_nil, or_false,
    exists_eq_or_imp, exists_eq_left, Option.mem_def]

/-- Two lengths in a comparison are those of its two sides. -/
theorem exists_length?_ne {lhs rhs : Function α} {op : Comparison} {broadcast : Bool} {m n : Nat}
    (hm : m ∈ (oneSided lhs op rhs broadcast).lengths)
    (hn : n ∈ (oneSided lhs op rhs broadcast).lengths) (hne : m ≠ n) :
    ∃ j k, lhs.length? = some j ∧ rhs.length? = some k ∧ j ≠ k := by
  rcases mem_lengths_oneSided.1 hm with hm | hm
  · rcases mem_lengths_oneSided.1 hn with hn | hn
    · exact absurd (Option.mem_unique hm hn) hne
    · exact ⟨m, n, hm, hn, hne⟩
  · rcases mem_lengths_oneSided.1 hn with hn | hn
    · exact ⟨n, m, hn, hm, hne.symm⟩
    · exact absurd (Option.mem_unique hm hn) hne

theorem mem_lengths_ranged {lb mid ub : Function α} {op₁ op₂ : Comparison} {broadcast : Bool}
    {k : Nat} : k ∈ (ranged lb op₁ mid op₂ ub broadcast).lengths ↔
      k ∈ lb.length? ∨ k ∈ mid.length? ∨ k ∈ ub.length? := by
  simp only [lengths, List.mem_filterMap, List.mem_cons, List.not_mem_nil, or_false,
    exists_eq_or_imp, exists_eq_left, Option.mem_def]

/-- The relations of `n` elements, none of them a broadcast. -/
def elements (n : Nat) : Relation α → List (Relation α)
  | oneSided lhs op rhs _ =>
    ((lhs.spread n).zip (rhs.spread n)).map fun (l, r) => oneSided l op r false
  | ranged lb op₁ mid op₂ ub _ =>
    ((lb.spread n).zip ((mid.spread n).zip (ub.spread n))).map fun (l, f, u) =>
      ranged l op₁ f op₂ u false
  | membership f s _ => (f.spread n).map fun f => membership f s false

/-- The broadcasts over arrays of scalar functions: comparisons in which at least one side is an
array, ranges with both operators the same way and each bound a constant or an array of constants,
and membership in a set of scalars. -/
inductive Elementwise : Relation α → Prop
  | oneSided {lhs rhs : Function α} {op : Comparison} (hop : op ∈ [Comparison.le, .ge, .eq])
      (hl : lhs.IsFlat) (hr : rhs.IsFlat) (harray : lhs.isArray = true ∨ rhs.isArray = true) :
      Elementwise (.oneSided lhs op rhs true)
  | ranged (lb ub : Bound α) {op : Comparison} {fs : List (Function α)}
      (hop : op ∈ [Comparison.le, .ge]) (hfs : (Function.array fs).IsFlat) :
      Elementwise (.ranged lb.toFunction op (.array fs) op ub.toFunction true)
  | membership (s : ScalarSet α) {fs : List (Function α)} (hfs : (Function.array fs).IsFlat) :
      Elementwise (.membership (.array fs) (.scalar s) true)

end Relation

theorem Relation.length_elements {r : Relation α} {n : Nat} (hr : r.Elementwise)
    (hlengths : ∀ k ∈ r.lengths, k = n) : (r.elements n).length = n := by
  cases hr with
  | @oneSided lhs rhs op hop hl hr harray =>
    have hln : (lhs.spread n).length = n :=
      Function.length_spread fun k hk => hlengths k (mem_lengths_oneSided.2 (.inl hk))
    have hrn : (rhs.spread n).length = n :=
      Function.length_spread fun k hk => hlengths k (mem_lengths_oneSided.2 (.inr hk))
    simp [elements, hln, hrn]
  | @ranged lb ub op fs hop hfs =>
    have hln : (lb.toFunction.spread n).length = n :=
      Function.length_spread fun k hk => hlengths k (mem_lengths_ranged.2 (.inl hk))
    have hfn : ((Function.array fs).spread n).length = n :=
      Function.length_spread fun k hk => hlengths k (mem_lengths_ranged.2 (.inr (.inl hk)))
    have hun : (ub.toFunction.spread n).length = n :=
      Function.length_spread fun k hk => hlengths k (mem_lengths_ranged.2 (.inr (.inr hk)))
    simp [elements, hln, hfn, hun]
  | @membership s fs hfs =>
    have hfn : fs.length = n := hlengths _ List.mem_cons_self
    simp [elements, Function.spread, hfn]

/-! ## Comparisons -/

theorem Comparison.exists_zeroSet? [Zero α] {op : Comparison}
    (hop : op ∈ [Comparison.le, .ge, .eq]) : ∃ s : ScalarSet α, op.zeroSet? = some s := by
  simp only [List.mem_cons, List.not_mem_nil, or_false] at hop
  rcases hop with rfl | rfl | rfl <;> exact ⟨_, rfl⟩

section Canonical

variable [Zero α] [One α] [Neg α] [Add α] [Sub α] [Mul α]

namespace Function

/-- A scalar minus an array: it stands before every element. -/
theorem difference_scalar_array {l : Function α} {rs : List (Function α)} (hl : l.isArray = false)
    (hrs : (array rs).IsFlat) :
    difference true l (array rs) =
      array <$> ((l.spread rs.length).zip rs).mapM fun p => scalarMinus p.1 p.2 := by
  have hzip : (l.spread rs.length).zip rs = rs.map fun r => (l, r) := by
    rw [List.map_prod_right_eq_zip, List.map_const', spread_scalar hl]
  rw [difference_scalarWithArray rs hl, if_pos rfl, minusEach, minusAll_eq_mapM, hzip,
    List.mapM_map, mapM_congr fun r hmem => minusEach_scalar l (hrs r hmem)]
  rfl

/-- An array minus a scalar: it stands behind every element. -/
theorem difference_array_scalar {ls : List (Function α)} {r : Function α}
    (hls : (array ls).IsFlat) (hr : r.isArray = false) :
    difference true (array ls) r =
      array <$> (ls.zip (r.spread ls.length)).mapM fun p => scalarMinus p.1 p.2 := by
  have hzip : ls.zip (r.spread ls.length) = ls.map fun l => (l, r) := by
    rw [List.map_prod_left_eq_zip, List.map_const', spread_scalar hr]
  rw [difference_arrayWithScalar ls hr, if_pos rfl, eachMinus_eq_mapM, hzip, List.mapM_map,
    mapM_congr fun l hmem => difference_scalars (hls l hmem) hr]
  rfl

/-- An array minus an array as long: the elements stand in pairs. -/
theorem difference_array_array {ls rs : List (Function α)} (hls : (array ls).IsFlat)
    (hrs : (array rs).IsFlat) (hlength : ls.length = rs.length) :
    difference true (array ls) (array rs) =
      array <$> (ls.zip rs).mapM fun p => scalarMinus p.1 p.2 := by
  have hpairs : ∀ p ∈ ls.zip rs, difference true p.1 p.2 = scalarMinus p.1 p.2 := by
    intro p hp
    obtain ⟨hpl, hpr⟩ := List.of_mem_zip hp
    exact difference_scalars (hls p.1 hpl) (hrs p.2 hpr)
  rw [difference, if_pos hlength, differences_eq_mapM, mapM_congr hpairs]
  rfl

/-- Under a broadcast the difference of sides of one length is the array of the differences of their
elements. -/
theorem difference_of_isFlat {lhs rhs : Function α} {n : Nat} (hl : lhs.IsFlat) (hr : rhs.IsFlat)
    (harray : lhs.isArray = true ∨ rhs.isArray = true) (hln : ∀ k ∈ lhs.length?, k = n)
    (hrn : ∀ k ∈ rhs.length?, k = n) :
    difference true lhs rhs =
      array <$> ((lhs.spread n).zip (rhs.spread n)).mapM fun p => scalarMinus p.1 p.2 := by
  cases hlarray : lhs.isArray with
  | false =>
    have hrarray : rhs.isArray = true := by simpa [hlarray] using harray
    cases rhs with
    | array rs =>
      obtain rfl := hrn rs.length rfl
      exact difference_scalar_array hlarray hr
    | _ => cases hrarray
  | true =>
    cases lhs with
    | array ls =>
      obtain rfl := hln ls.length rfl
      cases hrarray : rhs.isArray with
      | false => exact difference_array_scalar hl hrarray
      | true =>
        cases rhs with
        | array rs => exact difference_array_array hl hr (hrn rs.length rfl).symm
        | _ => cases hrarray
    | _ => cases hlarray

/-- Arrays of different lengths have no difference. -/
theorem difference_of_lengths_ne {lhs rhs : Function α} {m n : Nat} (hm : lhs.length? = some m)
    (hn : rhs.length? = some n) (hne : m ≠ n) (broadcast : Bool) :
    difference broadcast lhs rhs = .error (.lengths m n) := by
  cases lhs with
  | array ls =>
    cases rhs with
    | array rs =>
      cases hm
      cases hn
      rw [difference, if_neg hne]
    | _ => cases hn
  | _ => cases hm

end Function

namespace Relation

/-- The canonical form of a comparison over arrays of one length: the differences of the pairs of
elements, in the set around zero. -/
theorem canonicalForm_comparison {lhs rhs : Function α} {op : Comparison} {s : ScalarSet α}
    {n : Nat} (hs : op.zeroSet? = some s) (hl : lhs.IsFlat) (hr : rhs.IsFlat)
    (harray : lhs.isArray = true ∨ rhs.isArray = true) (hln : ∀ k ∈ lhs.length?, k = n)
    (hrn : ∀ k ∈ rhs.length?, k = n) :
    ∃ ds, (oneSided lhs op rhs true).canonicalForm =
        .ok (.membership (.array ds) (.scalar s) true) ∧
      List.Forall₂ (fun (p : Function α × Function α) d => p.1.minus? p.2 = some d)
        ((lhs.spread n).zip (rhs.spread n)) ds := by
  have hdiff : ∀ p ∈ (lhs.spread n).zip (rhs.spread n),
      ∃ d, Function.scalarMinus p.1 p.2 = .ok d := by
    intro p hp
    obtain ⟨hpl, hpr⟩ := List.of_mem_zip hp
    obtain ⟨d, hd⟩ := Function.exists_minus? (Function.isArray_of_mem_spread hl hpl)
      (Function.isArray_of_mem_spread hr hpr)
    exact ⟨d, by rw [Function.scalarMinus, hd]⟩
  obtain ⟨ds, hds⟩ := exists_mapM_eq_ok hdiff
  refine ⟨ds, ?_, ?_⟩
  · rw [canonicalForm, hs, Function.difference_of_isFlat hl hr harray hln hrn, hds]
    rfl
  · refine (mapM_eq_ok_iff.1 hds).imp fun p d hd => ?_
    unfold Function.scalarMinus at hd
    split at hd
    · rename_i f hf
      cases hd
      exact hf
    · cases hd

end Relation

end Canonical

/-! ## Ranges -/

theorem orientRange_map {β γ : Type} (g : β → γ) (op₁ op₂ : Comparison) (lb ub : β) :
    orientRange op₁ op₂ (g lb) (g ub) = (orientRange op₁ op₂ lb ub).map (Prod.map g g) := by
  unfold orientRange
  split <;> rfl

theorem exists_orientRange {β : Type} (lb ub : β) {op : Comparison}
    (hop : op ∈ [Comparison.le, .ge]) :
    ∃ lower upper, orientRange op op lb ub = some (lower, upper) := by
  simp only [List.mem_cons, List.not_mem_nil, or_false] at hop
  rcases hop with rfl | rfl <;> exact ⟨_, _, rfl⟩

theorem orientRange_cases {β : Type} {op₁ op₂ : Comparison} {lb ub lower upper : β}
    (h : orientRange op₁ op₂ lb ub = some (lower, upper)) :
    lower = lb ∧ upper = ub ∨ lower = ub ∧ upper = lb := by
  unfold orientRange at h
  split at h
  · cases h
    exact .inl ⟨rfl, rfl⟩
  · cases h
    exact .inr ⟨rfl, rfl⟩
  · cases h

/-- The ends of the range of an element are those of the ranges of all, at its place. -/
theorem orientRange_at {op₁ op₂ : Comparison} {lb ub lower upper : Bound α} {i : Nat} {l u : α}
    (h : orientRange op₁ op₂ lb ub = some (lower, upper)) (hl : lb.at? i = some l)
    (hu : ub.at? i = some u) :
    ∃ lo up, orientRange op₁ op₂ l u = some (lo, up) ∧ lower.at? i = some lo ∧
      upper.at? i = some up := by
  have hat := orientRange_map (Bound.at? · i) op₁ op₂ lb ub
  rw [h, hl, hu, orientRange_map some] at hat
  obtain ⟨⟨lo, up⟩, hlo, hpair⟩ := Option.map_eq_some_iff.1 hat
  simp only [Prod.map_apply, Prod.mk.injEq] at hpair
  exact ⟨lo, up, hlo, hpair.1.symm, hpair.2.symm⟩

namespace Bound

@[simp] theorem length?_toFunction (b : Bound α) : b.toFunction.length? = b.length? := by
  cases b <;> simp [toFunction, Function.length?, length?]

theorem getElem?_spread_toFunction (b : Bound α) {n i : Nat} (hi : i < n) :
    (b.toFunction.spread n)[i]? = (b.at? i).map .constant := by
  cases b with
  | scalar c => simp [toFunction, Function.spread, at?, hi]
  | array cs => simp [toFunction, Function.spread, at?]

theorem exists_at? {b : Bound α} {n i : Nat} (h : ∀ k ∈ b.length?, k = n) (hi : i < n) :
    ∃ c, b.at? i = some c := by
  cases b with
  | scalar c => exact ⟨c, rfl⟩
  | array cs =>
    obtain rfl := h cs.length rfl
    exact ⟨cs[i], List.getElem?_eq_getElem hi⟩

/-- What a bound gives to an element is the constant at its place. -/
theorem getElem_spread_toFunction {b : Bound α} {n i : Nat} {c : α} (hc : b.at? i = some c)
    (hn : i < n) (hi : i < (b.toFunction.spread n).length) :
    (b.toFunction.spread n)[i] = .constant c := by
  have h := getElem?_spread_toFunction b hn
  rw [List.getElem?_eq_getElem hi, hc] at h
  exact Option.some.inj h

theorem checkLength_eq_ok_iff {b : Bound α} {n : Nat} :
    b.checkLength n = .ok () ↔ ∀ k ∈ b.length?, k = n := by
  unfold checkLength
  cases b.length? with
  | none => simp
  | some k => simp

theorem checkLength_cases (b : Bound α) (n : Nat) :
    b.checkLength n = .ok () ∨ ∃ k, b.checkLength n = .error (.boundLengths k n) := by
  unfold checkLength
  cases b.length? with
  | none => exact .inl rfl
  | some k =>
    by_cases hk : k = n
    · exact .inl (if_pos hk)
    · exact .inr ⟨k, if_neg hk⟩

end Bound

/-- Beside each element of an array stand the constants that the bounds have at its place. -/
theorem Bound.forall₂_zip_spread {lb ub : Bound α} {fs : List (Function α)}
    (hlb : ∀ k ∈ lb.length?, k = fs.length) (hub : ∀ k ∈ ub.length?, k = fs.length) :
    List.Forall₂
      (fun (t : Function α × Function α × Function α) (p : Function α × Nat) =>
        p.1 ∈ fs ∧ ∃ l u, lb.at? p.2 = some l ∧ ub.at? p.2 = some u ∧
          t = (.constant l, p.1, .constant u))
      ((lb.toFunction.spread fs.length).zip (fs.zip (ub.toFunction.spread fs.length)))
      fs.zipIdx := by
  have hllen : (lb.toFunction.spread fs.length).length = fs.length :=
    Function.length_spread (lb.length?_toFunction ▸ hlb)
  have hulen : (ub.toFunction.spread fs.length).length = fs.length :=
    Function.length_spread (ub.length?_toFunction ▸ hub)
  rw [List.forall₂_iff_get]
  constructor
  · simp [hllen, hulen]
  · intro i _ hi
    have hi : i < fs.length := by simpa using hi
    obtain ⟨l, hl⟩ := exists_at? hlb hi
    obtain ⟨u, hu⟩ := exists_at? hub hi
    simp only [List.get_eq_getElem, List.getElem_zip, List.getElem_zipIdx, Nat.zero_add]
    refine ⟨List.getElem_mem hi, l, u, hl, hu, ?_⟩
    rw [getElem_spread_toFunction hl hi, getElem_spread_toFunction hu hi]

/-- Where bounds fit an array, no array of the range has another length. -/
theorem Relation.eq_length_of_mem_lengths {op₁ op₂ : Comparison} {lb ub : Bound α}
    {fs : List (Function α)} {broadcast : Bool} {k : Nat} (hlb : ∀ k ∈ lb.length?, k = fs.length)
    (hub : ∀ k ∈ ub.length?, k = fs.length)
    (hk : k ∈ (ranged lb.toFunction op₁ (.array fs) op₂ ub.toFunction broadcast).lengths) :
    k = fs.length := by
  rw [mem_lengths_ranged, Bound.length?_toFunction, Bound.length?_toFunction] at hk
  rcases hk with hk | hk | hk
  · exact hlb k hk
  · cases hk
    rfl
  · exact hub k hk

section Canonical

variable [Zero α] [One α] [Neg α] [Add α] [Sub α] [Mul α]

namespace Relation

variable {op₁ op₂ : Comparison} {lb ub lower upper : Bound α} {fs : List (Function α)}

/-- A range over an array, its ends read. -/
theorem canonicalForm_ranged_array (h : orientRange op₁ op₂ lb ub = some (lower, upper)) :
    (ranged lb.toFunction op₁ (.array fs) op₂ ub.toFunction true).canonicalForm = (do
      lower.checkLength fs.length
      upper.checkLength fs.length
      return .ranged (lower.shift 0) (.array fs) (upper.shift 0) true) := by
  rw [canonicalForm, orientRange_map, h]
  simp only [Option.map_some, Prod.map_apply, Function.toBound_toFunction]
  exact bind_assoc (lower.checkLength fs.length) (fun _ => upper.checkLength fs.length) _

/-- The canonical form of a range over an array, where every bound array is as long: the array
between its bounds. -/
theorem canonicalForm_range (hzero : SubZero α)
    (h : orientRange op₁ op₂ lb ub = some (lower, upper)) (hlb : ∀ k ∈ lb.length?, k = fs.length)
    (hub : ∀ k ∈ ub.length?, k = fs.length) :
    (ranged lb.toFunction op₁ (.array fs) op₂ ub.toFunction true).canonicalForm =
      .ok (.ranged lower (.array fs) upper true) := by
  have hlengths : lower.checkLength fs.length = .ok () ∧ upper.checkLength fs.length = .ok () := by
    rw [Bound.checkLength_eq_ok_iff, Bound.checkLength_eq_ok_iff]
    rcases orientRange_cases h with ⟨rfl, rfl⟩ | ⟨rfl, rfl⟩
    · exact ⟨hlb, hub⟩
    · exact ⟨hub, hlb⟩
  rw [canonicalForm_ranged_array h, hlengths.1, hlengths.2, Bound.shift_zero hzero,
    Bound.shift_zero hzero]
  rfl

/-- The canonical form of a range over a scalar function: its constant has moved both ends. -/
theorem canonicalForm_ranged_scalar {f : Function α} {l u lo up : α} (hf : f.isArray = false)
    (h : orientRange op₁ op₂ l u = some (lo, up)) :
    (ranged (.constant l) op₁ f op₂ (.constant u) false).canonicalForm =
      .ok (.ranged (.scalar (lo - f.additive)) f.withoutAdditive (.scalar (up - f.additive))
        false) := by
  rw [canonicalForm, orientRange_map, h, Function.relocate_scalar hf rfl]
  cases f with
  | array fs => cases hf
  | _ => rfl

/-- Where an array of bounds is not as long as the array between them, there is no canonical
form. -/
theorem canonicalForm_ranged_of_lengths_ne (h : orientRange op₁ op₂ lb ub = some (lower, upper))
    (hne : ¬ ((∀ k ∈ lb.length?, k = fs.length) ∧ ∀ k ∈ ub.length?, k = fs.length)) :
    ∃ k, (ranged lb.toFunction op₁ (.array fs) op₂ ub.toFunction true).canonicalForm =
      .error (.boundLengths k fs.length) := by
  rw [canonicalForm_ranged_array h]
  rcases lower.checkLength_cases fs.length with hlower | ⟨k, hlower⟩
  · rcases upper.checkLength_cases fs.length with hupper | ⟨k, hupper⟩
    · -- both ends fit, whichever of the bounds they are
      rw [Bound.checkLength_eq_ok_iff] at hlower hupper
      rcases orientRange_cases h with ⟨rfl, rfl⟩ | ⟨rfl, rfl⟩
      · exact absurd ⟨hlower, hupper⟩ hne
      · exact absurd ⟨hupper, hlower⟩ hne
    · exact ⟨k, by rw [hlower, hupper]; rfl⟩
  · exact ⟨k, by rw [hlower]; rfl⟩

/-- Where two arrays of a relation are of different lengths, it has no canonical form. -/
theorem canonicalForm_of_lengths_ne {r : Relation α} {m n : Nat} (hr : r.Elementwise)
    (hm : m ∈ r.lengths) (hn : n ∈ r.lengths) (hne : m ≠ n) :
    ∃ e, r.canonicalForm = .error e ∧ e.code = .mismatchedDimensions := by
  cases hr with
  | @oneSided lhs rhs op hop hl hr harray =>
    obtain ⟨j, k, hj, hk, hjk⟩ := exists_length?_ne hm hn hne
    obtain ⟨s, hs⟩ := Comparison.exists_zeroSet? (α := α) hop
    refine ⟨.lengths j k, ?_, rfl⟩
    rw [canonicalForm, hs, Function.difference_of_lengths_ne hj hk hjk]
    rfl
  | @ranged lb ub op fs hop hfs =>
    obtain ⟨lower, upper, h⟩ := exists_orientRange lb ub hop
    have hbounds : ¬ ((∀ k ∈ lb.length?, k = fs.length) ∧ ∀ k ∈ ub.length?, k = fs.length) := by
      rintro ⟨hlb, hub⟩
      have hm : m = fs.length := eq_length_of_mem_lengths hlb hub hm
      have hn : n = fs.length := eq_length_of_mem_lengths hlb hub hn
      exact hne (hm.trans hn.symm)
    obtain ⟨k, hk⟩ := canonicalForm_ranged_of_lengths_ne h hbounds
    exact ⟨.boundLengths k fs.length, hk, rfl⟩
  | @membership s fs hfs =>
    -- there is one array only
    simp only [lengths, List.filterMap_cons, Function.length?, List.filterMap_nil,
      List.mem_singleton] at hm hn
    exact absurd (hm.trans hn.symm) hne

end Relation

end Canonical

end AlgebraicModel
