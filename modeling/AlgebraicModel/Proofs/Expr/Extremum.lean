import AlgebraicModel.Expr.Eval
import AlgebraicModel.Proofs.Binary64.Rounding

/-!
# The least and the greatest of integers

`min` and `max` walk over their candidates and keep the first one whose nearest binary64 number is
the least or the greatest (`FirstLeast`, `Expr.extremum_eq_foldl`). So they give one of the
candidates, and the true extremum as long as no two candidates are rounded to one number
(`Expr.extremum_of_integers`), whatever the order of the candidates. Of integers that rounding makes
one, the first is given, whether it is the lesser or not.
-/

set_option autoImplicit false

namespace AlgebraicModel

open Binary64 (ofInt units KeptApart)

/-! ## The first of the least -/

section FirstLeast

variable {α : Type} {key : α → Int} {seen : List α} {v w x : α}

/-- The first element of a list whose key is the least. -/
def FirstLeast (key : α → Int) (vs : List α) (v : α) : Prop :=
  ∃ before after, vs = before ++ v :: after ∧ (∀ x ∈ before, key v < key x) ∧
    ∀ x ∈ after, key v ≤ key x

/-- The one of two elements that is kept, the earlier one unless the later one has a lesser key. -/
def keepLeast (key : α → Int) (w x : α) : α := if key x < key w then x else w

theorem FirstLeast.mem (h : FirstLeast key seen v) : v ∈ seen := by
  obtain ⟨before, after, rfl, -, -⟩ := h
  simp

theorem FirstLeast.le (h : FirstLeast key seen v) (hx : x ∈ seen) : key v ≤ key x := by
  obtain ⟨before, after, rfl, hbefore, hafter⟩ := h
  rcases List.mem_append.mp hx with hx | hx
  · exact (hbefore x hx).le
  · rcases List.mem_cons.mp hx with rfl | hx
    · exact le_refl _
    · exact hafter x hx

theorem firstLeast_singleton (key : α → Int) (v : α) : FirstLeast key [v] v :=
  ⟨[], [], rfl, by simp, by simp⟩

/-- What is kept of the elements seen and one more is the first of the least of them all. -/
theorem FirstLeast.concat (h : FirstLeast key seen w) (x : α) :
    FirstLeast key (seen ++ [x]) (keepLeast key w x) := by
  rw [keepLeast]
  split <;> rename_i hx
  · exact ⟨seen, [], rfl, fun y hy => lt_of_lt_of_le hx (h.le hy), by simp⟩
  · obtain ⟨before, after, rfl, hbefore, hafter⟩ := h
    refine ⟨before, after ++ [x], by simp, hbefore, ?_⟩
    rw [List.forall_mem_append, List.forall_mem_singleton]
    exact ⟨hafter, Int.not_lt.mp hx⟩

/-- The induction goes over the elements still to come, and what is kept is the first of the least
of those seen. -/
theorem FirstLeast.foldl (h : FirstLeast key seen w) (vs : List α) :
    FirstLeast key (seen ++ vs) (vs.foldl (keepLeast key) w) := by
  induction vs generalizing seen w with
  | nil =>
    rw [List.append_nil]
    exact h
  | cons x vs ih =>
    have hstep := ih (h.concat x)
    rwa [List.append_assoc, List.singleton_append] at hstep

end FirstLeast

/-! ## Candidates -/

namespace Expr

/-- The function that gives the least or the greatest. -/
def extremumName : Bool → Name
  | true => ⟨"min"⟩
  | false => ⟨"max"⟩

/-- Arguments of such a function, with the integers among which it chooses: the elements of one set,
or the values of two or more arguments. -/
inductive Candidates [Closeness] (b : Bindings) : List Expr → List Int64 → Prop where
  | set {s : Expr} {vs : List Int64} (hs : s.eval b = .ok (.set (vs.map .int))) :
      Candidates b [s] vs
  | each {e e' : Expr} {es : List Expr} {vs : List Int64}
      (h : List.Forall₂ (fun e v => e.eval b = .ok (.scalar (.int v))) (e :: e' :: es) vs) :
      Candidates b (e :: e' :: es) vs

/-- Where an integer stands among candidates, by the number nearest to it. -/
def standing (least : Bool) (n : Int64) : Int :=
  if least then units (ofInt n.toInt) else -units (ofInt n.toInt)

/-- Whether an integer is at most another one, or at least for the greatest. -/
def AtLeastAsExtreme (least : Bool) (m n : Int64) : Prop :=
  if least then m.toInt ≤ n.toInt else n.toInt ≤ m.toInt

section

variable {b : Bindings} {args : List Expr} {vs : List Int64} {v w x : Int64} {least : Bool}

theorem AtLeastAsExtreme.antisymm (h : AtLeastAsExtreme least v w)
    (h' : AtLeastAsExtreme least w v) : v = w := by
  apply Int64.toInt_inj.mp
  cases least with
  | false => exact Int.le_antisymm h' h
  | true => exact Int.le_antisymm h h'

theorem evalNumbers_of_forall₂ [Closeness] {es : List Expr}
    (h : List.Forall₂ (fun e v => e.eval b = .ok (.scalar (.int v))) es vs) :
    evalNumbers b es = .ok (vs.map .int) := by
  induction h with
  | nil => rw [evalNumbers]; rfl
  | @cons e v es vs he _ ih =>
    rw [evalNumbers, he, ih]
    rfl

/-- A candidate is better than another one by the order of the numbers nearest to them. -/
theorem better_eq_standing_lt (least : Bool) (m n : Int64) :
    (if least then decide (ofInt m.toInt < ofInt n.toInt)
      else decide (ofInt n.toInt < ofInt m.toInt)) =
      decide (standing least m < standing least n) := by
  have hlt (m n : Int64) :=
    Binary64.lt_iff_units_lt (Binary64.isNaN_ofInt m.toInt) (Binary64.isNaN_ofInt n.toInt)
  cases least with
  | false =>
    simp only [standing, Bool.false_eq_true, if_false, hlt, decide_eq_decide]
    omega
  | true => simp only [standing, if_true, hlt]

/-- The candidate kept at last is the one that the comparisons of nearest numbers keep. -/
theorem extremum_eq_foldl (f : Name) (least : Bool) (w : Int64) (vs : List Int64) :
    extremum f (fun x y => if least then x < y else y < x) (some (ofInt w.toInt, .int w))
      (vs.map .int) = .ok (.int (vs.foldl (keepLeast (standing least)) w)) := by
  induction vs generalizing w with
  | nil => rfl
  | cons x vs ih =>
    rw [List.foldl_cons, ← ih, keepLeast]
    simp only [List.map_cons, extremum, IndexValue.float?, better_eq_standing_lt, decide_eq_true_eq]
    by_cases h : standing least x < standing least w
    · simp only [if_pos h]
    · simp only [if_neg h]

theorem extremumOf_eq_foldl (f : Name) (least : Bool) (v : Int64) (vs : List Int64) :
    extremumOf f least ((v :: vs).map .int) =
      .ok (.int (vs.foldl (keepLeast (standing least)) v)) := by
  rw [extremumOf, List.map_cons, extremum, ← extremum_eq_foldl f]
  rfl

/-- The function evaluates to what the walk over the candidates gives. -/
theorem eval_extremum [Closeness] (least : Bool) (h : Candidates b args vs) :
    (app (extremumName least) args).eval b =
      (do return .scalar (← extremumOf (extremumName least) least (vs.map .int))) := by
  obtain ⟨g, hname, hleast, hlen, habs⟩ : ∃ g, Builtin.ofName? (extremumName least) = some g ∧
      (g == .min) = least ∧ g ≠ .len ∧ g ≠ .abs := by
    cases least with
    | false => exact ⟨.max, by decide⟩
    | true => exact ⟨.min, by decide⟩
  cases h with
  | set hs =>
    simp only [eval, hname, hleast, hs]
    rfl
  | each hes =>
    simp only [eval, hname, hleast, evalNumbers_of_forall₂ hes]
    rfl

/-- Some candidate is given, the first of those whose nearest numbers are the most extreme. -/
theorem exists_firstLeast [Closeness] (least : Bool) (h : Candidates b args vs) (hne : vs ≠ []) :
    ∃ v, (app (extremumName least) args).eval b = .ok (.scalar (.int v)) ∧
      FirstLeast (standing least) vs v := by
  obtain ⟨v, vs, rfl⟩ := List.exists_cons_of_ne_nil hne
  refine ⟨_, ?_, (firstLeast_singleton (standing least) v).foldl vs⟩
  rw [eval_extremum least h, extremumOf_eq_foldl]
  rfl

/-- Rounding puts no integer before a lesser one, so that it can only make the two one. -/
theorem atLeastAsExtreme_of_standing_le (h : standing least v ≤ standing least x)
    (hmerged : ofInt x.toInt = ofInt v.toInt → AtLeastAsExtreme least v x) :
    AtLeastAsExtreme least v x := by
  by_contra hnot
  apply hnot
  apply hmerged
  rw [Binary64.ofInt_eq_ofInt_iff]
  unfold AtLeastAsExtreme at hnot
  unfold standing at h
  cases least with
  | false =>
    simp only [Bool.false_eq_true, if_false] at h hnot
    have hmono := Binary64.units_ofInt_mono (Int.not_le.mp hnot).le
    omega
  | true =>
    simp only [if_true] at h hnot
    have hmono := Binary64.units_ofInt_mono (Int.not_le.mp hnot).le
    omega

theorem isExtreme_of_firstLeast (h : FirstLeast (standing least) vs v)
    (hapart : ∀ x ∈ vs, ∀ y ∈ vs, KeptApart x.toInt y.toInt) (hx : x ∈ vs) :
    AtLeastAsExtreme least v x := by
  refine atLeastAsExtreme_of_standing_le (h.le hx) fun hmerged => ?_
  have heq := hapart x hx v h.mem hmerged
  unfold AtLeastAsExtreme
  split <;> omega

/-- The least or the greatest of integers is one of them, the first whose nearest number is the most
extreme. It is the true extremum exactly where it is as extreme as those that rounding makes one
with it. So where rounding keeps the candidates apart it is the true extremum, and the order of the
candidates does not matter. -/
theorem extremum_of_integers [Closeness] (least : Bool) (h : Candidates b args vs) (hne : vs ≠ []) :
    ∃ v, (app (extremumName least) args).eval b = .ok (.scalar (.int v)) ∧ v ∈ vs ∧
      FirstLeast (standing least) vs v ∧
      ((∀ x ∈ vs, AtLeastAsExtreme least v x) ↔
        ∀ x ∈ vs, ofInt x.toInt = ofInt v.toInt → AtLeastAsExtreme least v x) ∧
      ((∀ x ∈ vs, ∀ y ∈ vs, KeptApart x.toInt y.toInt) →
        (∀ x ∈ vs, AtLeastAsExtreme least v x) ∧
        ∀ args' vs', Candidates b args' vs' → vs'.Perm vs →
          (app (extremumName least) args').eval b = .ok (.scalar (.int v))) := by
  obtain ⟨v, heval, hv⟩ := exists_firstLeast least h hne
  refine ⟨v, heval, hv.mem, hv, ⟨fun hall x hx _ => hall x hx, fun hmerged x hx => ?_⟩,
    fun hapart => ⟨fun x hx => isExtreme_of_firstLeast hv hapart hx, fun args' vs' h' hperm => ?_⟩⟩
  · exact atLeastAsExtreme_of_standing_le (hv.le hx) (hmerged x hx)
  · -- each of the two results is as extreme as the other one
    have hne' : vs' ≠ [] := by
      rintro rfl
      exact hne hperm.symm.eq_nil
    obtain ⟨v', heval', hv'⟩ := exists_firstLeast least h' hne'
    have hapart' : ∀ x ∈ vs', ∀ y ∈ vs', KeptApart x.toInt y.toInt := fun x hx y hy =>
      hapart x (hperm.mem_iff.mp hx) y (hperm.mem_iff.mp hy)
    have hle := isExtreme_of_firstLeast hv hapart (hperm.mem_iff.mp hv'.mem)
    have hge := isExtreme_of_firstLeast hv' hapart' (hperm.mem_iff.mpr hv.mem)
    rw [heval', hge.antisymm hle]

/-- The least of three and two. -/
theorem extremum_of_three_and_two :
    (app ⟨"min"⟩ [const (.int 3), const (.int 2)]).eval (.ofParams .empty) =
      .ok (.scalar (.int 2)) := by
  have hcandidates : Candidates (.ofParams .empty) [const (.int 3), const (.int 2)] [3, 2] :=
    .each (.cons (by rw [eval]) (.cons (by rw [eval]) .nil))
  obtain ⟨v, heval, hmem, -, -, hapart⟩ := extremum_of_integers true hcandidates (by simp)
  have hsmall : ∀ x ∈ ([3, 2] : List Int64), x.toInt.natAbs ≤ 3 := by simp
  have hextreme := (hapart fun x hx y hy =>
    Binary64.keptApart_of_le ((hsmall x hx).trans (by decide)) ((hsmall y hy).trans (by decide))).1
      2 (by simp)
  rw [List.mem_pair] at hmem
  rcases hmem with rfl | rfl
  · exact absurd hextreme (by unfold AtLeastAsExtreme; decide)
  · exact heval

/-- Of two integers that rounding makes one, the greater one is the least where it comes first. -/
theorem least_of_merged :
    let l := const (.int 9007199254740992)
    let r := const (.int 9007199254740993)
    (app ⟨"min"⟩ [r, l]).eval (.ofParams .empty) = .ok (.scalar (.int 9007199254740993)) ∧
      (app ⟨"min"⟩ [l, r]).eval (.ofParams .empty) = .ok (.scalar (.int 9007199254740992)) := by
  intro l r
  have hmerged :
      ofInt (9007199254740992 : Int64).toInt = ofInt (9007199254740993 : Int64).toInt := by
    decide +kernel
  have hcandidates (m n : Int64) :
      Candidates (.ofParams .empty) [const (.int m), const (.int n)] [m, n] :=
    .each (.cons (by rw [eval]) (.cons (by rw [eval]) .nil))
  have hfirst {m n : Int64} (h : ofInt m.toInt = ofInt n.toInt) :
      (app ⟨"min"⟩ [const (.int m), const (.int n)]).eval (.ofParams .empty) =
        .ok (.scalar (.int m)) := by
    have hkept : keepLeast (standing true) m n = m := by
      rw [keepLeast, standing, standing, h, if_neg (Int.lt_irrefl _)]
    have heval := eval_extremum true (hcandidates m n)
    rw [extremumOf_eq_foldl, List.foldl_cons, List.foldl_nil, hkept] at heval
    exact heval
  exact ⟨hfirst hmerged.symm, hfirst hmerged⟩

end

end Expr

end AlgebraicModel
