import AlgebraicModel.Proofs.Function.Value
import Mathlib.Algebra.Ring.Rat
import Mathlib.Data.List.Nodup
import Mathlib.Data.Sym.Sym2

/-!
# Terms stay merged

The arithmetic of affine and quadratic functions never leaves two terms on one variable, nor two on
one pair of variables.

`Affine.Built` and `Quadratic.Built` are the functions that the operations build, a constructor for
each operation. The terms of a function are looked at by their keys, the variables or the pairs: to
add a term is to `enter` its key (`Merges.keys`), which keeps keys different (`nodup_foldl_enter`)
and puts new ones at the end (`foldl_enter`). By induction on how a function was built its terms are
merged (`Affine.Built.nodup_vars`, `Quadratic.Built.isMerged`). `arithmetic_merges_and_computes`
puts this together with the values of the operations.

The variables of an affine sum are those of the left side and then the new ones of the right side.
Those of a quadratic sum are not: the affine part of the right side comes before the pairs of the
left side (`vars_add_of_new_affine`).
-/

set_option autoImplicit false

namespace AlgebraicModel

/-! ## Keys of terms -/

section Keys

variable {κ α : Type} [DecidableEq κ]

/-- The keys with one more at the end, unless it is there. -/
def enter (ks : List κ) (k : κ) : List κ := if k ∈ ks then ks else ks ++ [k]

theorem nodup_enter {ks : List κ} (h : ks.Nodup) (k : κ) : (enter ks k).Nodup := by
  unfold enter
  split
  · exact h
  · rename_i hk
    apply List.Nodup.append h (List.nodup_singleton k)
    exact List.disjoint_singleton.mpr hk

theorem nodup_foldl_enter {ks : List κ} (h : ks.Nodup) (added : List κ) :
    (added.foldl enter ks).Nodup := by
  induction added generalizing ks with
  | nil => exact h
  | cons k added ih => exact ih (nodup_enter h k)

theorem mem_foldl_enter_iff {ks added : List κ} {k : κ} :
    k ∈ added.foldl enter ks ↔ k ∈ ks ∨ k ∈ added := by
  induction added generalizing ks with
  | nil => simp
  | cons k' added ih =>
    have hk : k ∈ enter ks k' ↔ k ∈ ks ∨ k = k' := by
      unfold enter
      split
      · rename_i hmem
        exact ⟨.inl, fun h => h.elim id fun heq => heq ▸ hmem⟩
      · simp
    rw [List.foldl_cons, ih, hk, List.mem_cons, or_assoc]

/-- Keys that differ from each other are entered in their order, as far as they are new. -/
theorem foldl_enter {ks added : List κ} (h : added.Nodup) :
    added.foldl enter ks = ks ++ added.filter (· ∉ ks) := by
  induction added generalizing ks with
  | nil => simp
  | cons k added ih =>
    obtain ⟨hk, hadded⟩ := List.nodup_cons.mp h
    rw [List.foldl_cons, ih hadded, enter]
    by_cases hmem : k ∈ ks
    · -- the key is there and changes nothing
      simp [hmem]
    · -- the key is new, and none of those that follow it is the same
      have hfilter : added.filter (· ∉ ks ++ [k]) = added.filter (· ∉ ks) := by
        apply List.filter_congr
        intro k' hk'
        have hne : k' ≠ k := fun heq => hk (heq ▸ hk')
        simp [hne]
      rw [if_neg hmem, hfilter, List.filter_cons_of_pos (by simpa using hmem), List.append_assoc]
      rfl

/-- How a term is added to those of a function: to the coefficient of its key, or as a new term at
the end. -/
structure Merges [Add α] (addTo : κ → α → List (κ × α) → List (κ × α)) : Prop where
  nil : ∀ k c, addTo k c [] = [(k, c)]
  cons : ∀ k c k' d terms, addTo k c ((k', d) :: terms) =
    if k' = k then (k', d + c) :: terms else (k', d) :: addTo k c terms

variable [Add α] {addTo : κ → α → List (κ × α) → List (κ × α)}

theorem Merges.keys (h : Merges addTo) (k : κ) (c : α) (terms : List (κ × α)) :
    (addTo k c terms).map Prod.fst = enter (terms.map Prod.fst) k := by
  induction terms with
  | nil =>
    rw [h.nil]
    rfl
  | cons t terms ih =>
    obtain ⟨k', d⟩ := t
    rw [h.cons]
    by_cases hk : k' = k
    · -- the term of the key takes the coefficient in
      simp [hk, enter]
    · -- the search goes on behind the first term
      have hne : k ≠ k' := Ne.symm hk
      rw [if_neg hk, List.map_cons, ih, List.map_cons]
      simp only [enter, List.mem_cons, hne, false_or]
      split <;> rfl

/-- Adding terms one by one enters their keys, which are read through `key`. -/
theorem Merges.keys_foldl (h : Merges addTo) (key : κ → κ) (terms added : List (κ × α)) :
    (added.foldl (fun ts t => addTo (key t.1) t.2 ts) terms).map Prod.fst =
      ((added.map Prod.fst).map key).foldl enter (terms.map Prod.fst) := by
  induction added generalizing terms with
  | nil => rfl
  | cons t added ih =>
    rw [List.foldl_cons, ih, h.keys, List.map_cons, List.map_cons, List.foldl_cons]

end Keys

theorem VarRef.le_antisymm {a b : VarRef} (hab : a ≤ b) (hba : b ≤ a) : a = b := by
  rw [VarRef.le_iff] at hab hba
  obtain ⟨hmodel, hindex⟩ : a.model = b.model ∧ a.index = b.index := by omega
  cases a
  cases b
  simp_all

variable {α : Type}

namespace Affine

section Merging

variable [Add α]

theorem merges_addTermTo : Merges (addTermTo : VarRef → α → _ → _) :=
  ⟨fun _ _ => rfl, fun _ _ _ _ _ => rfl⟩

theorem vars_addTerm (f : Affine α) (v : VarRef) (c : α) :
    (f.addTerm v c).vars = enter f.vars v :=
  merges_addTermTo.keys v c f.terms

theorem vars_add (f g : Affine α) : (f.add g).vars = g.vars.foldl enter f.vars := by
  have h := merges_addTermTo.keys_foldl id f.terms g.terms
  rw [List.map_id] at h
  exact h

theorem nodup_vars_add {f : Affine α} (hf : f.vars.Nodup) (g : Affine α) :
    (f.add g).vars.Nodup := by
  rw [vars_add]
  exact nodup_foldl_enter hf g.vars

/-- The new variables of the right side follow those of the left side. -/
theorem vars_add_of_nodup (f : Affine α) {g : Affine α} (hg : g.vars.Nodup) :
    (f.add g).vars = f.vars ++ g.vars.filter (· ∉ f.vars) := by
  rw [vars_add]
  exact foldl_enter hg

end Merging

variable [Zero α] [One α] [Neg α] [Add α] [Mul α]

/-- The affine functions that are built by the operations, one after the other in any order. -/
inductive Built : Affine α → Prop
  | zero : Built .zero
  | ofConstant (c : α) : Built (.ofConstant c)
  | ofVar (v : VarRef) : Built (.ofVar v)
  | addTerm {f : Affine α} (hf : Built f) (v : VarRef) (c : α) : Built (f.addTerm v c)
  | plus {f : Affine α} (hf : Built f) (c : α) : Built (f.plus c)
  | setConstant {f : Affine α} (hf : Built f) (c : α) : Built (f.setConstant c)
  | add {f g : Affine α} (hf : Built f) (hg : Built g) : Built (f.add g)
  | sub {f g : Affine α} (hf : Built f) (hg : Built g) : Built (f.sub g)
  | neg {f : Affine α} (hf : Built f) : Built f.neg
  | scale {f : Affine α} (hf : Built f) (k : α) : Built (f.scale k)

/-- No variable has two terms in a function that the operations build. -/
theorem Built.nodup_vars {f : Affine α} (h : f.Built) : f.vars.Nodup := by
  -- the functions that are added or scaled are merged by induction
  induction h with
  | zero => exact List.nodup_nil
  | ofConstant c => exact List.nodup_nil
  | ofVar v => exact List.nodup_singleton v
  | addTerm _ v c ih =>
    rw [vars_addTerm]
    exact nodup_enter ih v
  | plus _ c ih => exact ih
  | setConstant _ c ih => exact ih
  | add _ _ ihf _ => exact nodup_vars_add ihf _
  | sub _ _ ihf _ => exact nodup_vars_add ihf _
  | neg _ ih =>
    rw [Affine.neg, vars_scale]
    exact ih
  | scale _ k ih =>
    rw [vars_scale]
    exact ih

end Affine

namespace Quadratic

/-- The pairs of variables, in the order of their terms. -/
def pairs (q : Quadratic α) : List (VarRef × VarRef) := q.terms.map Prod.fst

/-- The terms of the function are merged: one for each variable and one for each pair of variables,
in whichever order the pair is read, with the smaller variable first. -/
structure IsMerged (q : Quadratic α) : Prop where
  vars : q.affine.vars.Nodup
  ordered : ∀ p ∈ q.pairs, p.1 ≤ p.2
  pairs : (q.pairs.map fun p => s(p.1, p.2)).Nodup

theorem orderedPair_le (a b : VarRef) : (orderedPair a b).1 ≤ (orderedPair a b).2 := by
  unfold orderedPair
  split
  · assumption
  · rename_i h
    exact (VarRef.le_total a b).resolve_left h

theorem orderedPair_of_le {p : VarRef × VarRef} (h : p.1 ≤ p.2) : orderedPair p.1 p.2 = p :=
  if_pos h

/-- Pairs with the smaller variable first are equal when they are so in any order. -/
theorem nodup_sym2_of_ordered {ps : List (VarRef × VarRef)} (hordered : ∀ p ∈ ps, p.1 ≤ p.2)
    (h : ps.Nodup) : (ps.map fun p => s(p.1, p.2)).Nodup := by
  apply h.map_on
  rintro ⟨a, b⟩ hp ⟨c, d⟩ hq heq
  rcases Sym2.eq_iff.mp heq with ⟨rfl, rfl⟩ | ⟨rfl, rfl⟩
  · rfl
  · -- read the other way round, so both orders hold
    obtain rfl : a = b := VarRef.le_antisymm (hordered _ hp) (hordered _ hq)
    rfl

theorem vars_eq (q : Quadratic α) : q.vars = q.affine.vars ++ q.pairs.flatMap fun p => [p.1, p.2] := by
  rw [vars, pairs, List.flatMap_map]

section Merging

variable [Add α]

theorem merges_addPairTo : Merges (addPairTo : VarRef × VarRef → α → _ → _) :=
  ⟨fun _ _ => rfl, fun _ _ _ _ _ => rfl⟩

theorem pairs_addTerm (q : Quadratic α) (a b : VarRef) (c : α) :
    (q.addTerm a b c).pairs = enter q.pairs (orderedPair a b) :=
  merges_addPairTo.keys (orderedPair a b) c q.terms

theorem pairs_add (p q : Quadratic α) :
    (p.add q).pairs = (q.pairs.map fun r => orderedPair r.1 r.2).foldl enter p.pairs :=
  merges_addPairTo.keys_foldl (fun r => orderedPair r.1 r.2) p.terms q.terms

end Merging

@[simp] theorem pairs_scale [Mul α] (q : Quadratic α) (k : α) : (q.scale k).pairs = q.pairs := by
  simp [pairs, scale]

theorem isMerged_ofAffine {f : Affine α} (h : f.vars.Nodup) : (ofAffine f).IsMerged :=
  ⟨h, fun _ hp => absurd hp List.not_mem_nil, List.nodup_nil⟩

/-- Every new term has its pair in order, so only the pairs that were there matter. -/
theorem ordered_foldl_enter {ps : List (VarRef × VarRef)} (h : ∀ p ∈ ps, p.1 ≤ p.2)
    (added : List (VarRef × VarRef)) :
    ∀ p ∈ (added.map fun r => orderedPair r.1 r.2).foldl enter ps, p.1 ≤ p.2 := by
  intro p hp
  rcases mem_foldl_enter_iff.mp hp with hp | hp
  · exact h p hp
  · obtain ⟨r, -, rfl⟩ := List.mem_map.mp hp
    exact orderedPair_le r.1 r.2

/-- The terms stay merged when terms of other pairs are added to them. -/
theorem IsMerged.enter {q q' : Quadratic α} (h : q.IsMerged) (added : List (VarRef × VarRef))
    (hvars : q'.affine.vars.Nodup)
    (hpairs : q'.pairs = (added.map fun r => orderedPair r.1 r.2).foldl enter q.pairs) :
    q'.IsMerged := by
  have hordered : ∀ p ∈ q'.pairs, p.1 ≤ p.2 := by
    rw [hpairs]
    exact ordered_foldl_enter h.ordered added
  refine ⟨hvars, hordered, nodup_sym2_of_ordered hordered ?_⟩
  rw [hpairs]
  exact nodup_foldl_enter h.pairs.of_map _

variable [Zero α] [One α] [Neg α] [Add α] [Mul α]

/-- The quadratic functions that are built by the operations, one after the other in any order. -/
inductive Built : Quadratic α → Prop
  | zero : Built .zero
  | ofAffine {f : Affine α} (hf : f.Built) : Built (.ofAffine f)
  | addTerm {q : Quadratic α} (hq : Built q) (a b : VarRef) (c : α) : Built (q.addTerm a b c)
  /-- Another affine part is put in place, for instance one with another constant. -/
  | withAffine {q : Quadratic α} {f : Affine α} (hq : Built q) (hf : f.Built) :
      Built { q with affine := f }
  | add {p q : Quadratic α} (hp : Built p) (hq : Built q) : Built (p.add q)
  | sub {p q : Quadratic α} (hp : Built p) (hq : Built q) : Built (p.sub q)
  | scale {q : Quadratic α} (hq : Built q) (k : α) : Built (q.scale k)

/-- The affine part of a function that the operations build is built by them as well. -/
theorem Built.affine {q : Quadratic α} (h : q.Built) : q.affine.Built := by
  induction h with
  | zero => exact .zero
  | ofAffine hf => exact hf
  | addTerm _ a b c ih => exact ih
  | withAffine _ hf _ => exact hf
  | add _ _ ihp ihq => exact ihp.add ihq
  | sub _ _ ihp ihq => exact ihp.add (ihq.scale (-1))
  | scale _ k ih => exact ih.scale k

/-- In a function that the operations build no variable and no pair of variables has two terms. -/
theorem Built.isMerged {q : Quadratic α} (h : q.Built) : q.IsMerged := by
  -- the affine part has its own induction; this one is about the pairs
  have hvars : q.affine.vars.Nodup := h.affine.nodup_vars
  induction h with
  | zero => exact isMerged_ofAffine hvars
  | ofAffine _ => exact isMerged_ofAffine hvars
  | addTerm hq a b c ih => exact (ih hq.affine.nodup_vars).enter [(a, b)] hvars (pairs_addTerm _ a b c)
  | withAffine hq _ ih =>
    have hmerged := ih hq.affine.nodup_vars
    exact ⟨hvars, hmerged.ordered, hmerged.pairs⟩
  | @add p q hp _ ihp _ => exact (ihp hp.affine.nodup_vars).enter q.pairs hvars (pairs_add p q)
  | @sub p q hp _ ihp _ =>
    apply (ihp hp.affine.nodup_vars).enter q.pairs hvars
    rw [Quadratic.sub, pairs_add, pairs_scale]
  | @scale q hq k ih =>
    have hmerged := ih hq.affine.nodup_vars
    refine ⟨hvars, ?_, ?_⟩
    · rw [pairs_scale]
      exact hmerged.ordered
    · rw [pairs_scale]
      exact hmerged.pairs

omit [Zero α] [One α] [Neg α] [Mul α] in
/-- The new pairs of the right side follow those of the left side. -/
theorem pairs_add_of_isMerged (p : Quadratic α) {q : Quadratic α} (hq : q.IsMerged) :
    (p.add q).pairs = p.pairs ++ q.pairs.filter (· ∉ p.pairs) := by
  -- the pairs that are added are in order already
  have hordered : (q.pairs.map fun r => orderedPair r.1 r.2) = q.pairs := by
    rw [List.map_congr_left fun r hr => orderedPair_of_le (hq.ordered r hr), List.map_id']
  rw [pairs_add, hordered]
  convert foldl_enter hq.pairs.of_map

end Quadratic

/-- Affine and quadratic arithmetic. Whatever the operations build has merged terms, and the terms of
a sum are those of the left side followed by the new ones of the right side: so are the variables of
an affine sum, and the variables of the affine part and then the pairs of a quadratic one. In exact
arithmetic the operations compute with values, and functions that are no arrays have a difference. -/
theorem arithmetic_merges_and_computes [Zero α] [One α] [Neg α] [Add α] [Mul α]
    {β : Type} [CommRing β] :
    ((∀ f : Affine α, f.Built → f.vars.Nodup) ∧ ∀ q : Quadratic α, q.Built → q.IsMerged) ∧
      (∀ f g : Affine α, f.Built → g.Built →
        (f.add g).vars = f.vars ++ g.vars.filter (· ∉ f.vars)) ∧
      (∀ p q : Quadratic α, p.Built → q.Built → (p.add q).vars =
        p.affine.vars ++ q.affine.vars.filter (· ∉ p.affine.vars) ++
          (p.pairs ++ q.pairs.filter (· ∉ p.pairs)).flatMap fun r => [r.1, r.2]) ∧
      (∀ (ρ : Assignment β) (f g : Affine β) (k : β),
        (f.add g).value ρ = f.value ρ + g.value ρ ∧ (f.sub g).value ρ = f.value ρ - g.value ρ ∧
          f.neg.value ρ = -f.value ρ ∧ (f.scale k).value ρ = f.value ρ * k) ∧
      (∀ (ρ : Assignment β) (p q : Quadratic β) (k : β),
        (p.add q).value ρ = p.value ρ + q.value ρ ∧ (p.sub q).value ρ = p.value ρ - q.value ρ ∧
          (p.scale k).value ρ = p.value ρ * k) ∧
      ∀ f g : Function β, f.isArray = false → g.isArray = false → ∃ h, f.minus? g = some h ∧
        ∀ ρ, ∃ a b, f.value? ρ = some a ∧ g.value? ρ = some b ∧ h.value? ρ = some (a - b) := by
  refine ⟨⟨fun f hf => hf.nodup_vars, fun q hq => hq.isMerged⟩, ?_, ?_, ?_, ?_, ?_⟩
  · intro f g _ hg
    exact f.vars_add_of_nodup hg.nodup_vars
  · intro p q _ hq
    have haffine : (p.add q).affine = p.affine.add q.affine := rfl
    rw [Quadratic.vars_eq, haffine, Affine.vars_add_of_nodup _ hq.affine.nodup_vars,
      p.pairs_add_of_isMerged hq.isMerged]
  · intro ρ f g k
    exact ⟨f.value_add ρ g, f.value_sub ρ g, f.value_neg ρ, f.value_scale ρ k⟩
  · intro ρ p q k
    exact ⟨p.value_add ρ q, p.value_sub ρ q, p.value_scale ρ k⟩
  · intro f g hf hg
    obtain ⟨h, hh⟩ := Function.exists_minus? hf hg
    exact ⟨h, hh, fun ρ => Function.value?_minus? ρ hh⟩

/-- The sums of `x - (2 y + 1)` and `3 (z + x)`, and of two quadratic functions with the pair of `x`
and `y`, once read either way; and the difference of a quadratic function and a constant. -/
theorem arithmetic_merges_three_variables :
    let x : VarRef := ⟨1, 0⟩
    let y : VarRef := ⟨1, 1⟩
    let z : VarRef := ⟨1, 2⟩
    let f : Affine Float := (Affine.ofVar x).sub ((Affine.zero.addTerm y 2).plus 1)
    let g : Affine Float := ((Affine.ofVar z).add (Affine.ofVar x)).scale 3
    let p : Quadratic Float := (Quadratic.ofAffine f).addTerm y x 2
    let q : Quadratic Float := ((Quadratic.ofAffine g).addTerm x y 4).addTerm z z 1
    let r : Function ℚ := .quadratic ⟨⟨[(x, 2)], 1⟩, [((x, y), 1)]⟩
    f.Built ∧ g.Built ∧ p.Built ∧ q.Built ∧ f.vars.Nodup ∧ q.IsMerged ∧
      (f.add g).vars = f.vars ++ g.vars.filter (· ∉ f.vars) ∧ (f.add g).vars = [x, y, z] ∧
      (p.add q).vars = p.affine.vars ++ q.affine.vars.filter (· ∉ p.affine.vars) ++
        (p.pairs ++ q.pairs.filter (· ∉ p.pairs)).flatMap (fun r => [r.1, r.2]) ∧
      (p.add q).vars = [x, y, z, x, y, z, z] ∧ r.isArray = false ∧
      ∃ h, r.minus? (.constant 5) = some h ∧ ∀ ρ, ∃ a b, r.value? ρ = some a ∧
        (Function.constant 5).value? ρ = some b ∧ h.value? ρ = some (a - b) := by
  intro x y z f g p q r
  have hf : f.Built := (Affine.Built.ofVar x).sub ((Affine.Built.zero.addTerm y 2).plus 1)
  have hg : g.Built := ((Affine.Built.ofVar z).add (Affine.Built.ofVar x)).scale 3
  have hp : p.Built := (Quadratic.Built.ofAffine hf).addTerm y x 2
  have hq : q.Built := ((Quadratic.Built.ofAffine hg).addTerm x y 4).addTerm z z 1
  obtain ⟨⟨hvars, hmerged⟩, hsum, hpairs, -, -, hminus⟩ :=
    arithmetic_merges_and_computes (α := Float) (β := ℚ)
  exact ⟨hf, hg, hp, hq, hvars f hf, hmerged q hq, hsum f g hf hg, by decide, hpairs p q hp hq,
    by decide, rfl, hminus r (.constant 5) rfl rfl⟩

/-- In `x * x` plus `y` the new variable `y` comes before those of the left side. -/
theorem vars_add_of_new_affine :
    let x : VarRef := ⟨1, 0⟩
    let y : VarRef := ⟨1, 1⟩
    let p : Quadratic Float := Quadratic.zero.addTerm x x 1
    let q : Quadratic Float := .ofAffine (.ofVar y)
    p.Built ∧ q.Built ∧ (p.add q).vars = [y, x, x] ∧
      p.vars ++ q.vars.filter (· ∉ p.vars) = [x, x, y] ∧
        (p.add q).vars ≠ p.vars ++ q.vars.filter (· ∉ p.vars) := by
  intro x y p q
  have hp : p.Built := Quadratic.Built.zero.addTerm x x 1
  have hq : q.Built := .ofAffine (.ofVar y)
  exact ⟨hp, hq, by decide, by decide, by decide⟩

end AlgebraicModel
