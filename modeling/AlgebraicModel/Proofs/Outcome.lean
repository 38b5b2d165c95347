import Mathlib.Data.List.Forall2

/-!
# Successful computations

Every stage of compilation is a computation that may fail. This module reads the successful ones
back: a sequence succeeds when its parts do (`bind_eq_ok_iff`), relabelling a failure leaves success
alone (`mapError_eq_ok_iff`), and a traversal succeeds when it does so at every element
(`mapM_eq_ok_iff`). `forall_mem_iff_of_mapM` carries a property from the results of a traversal to
the elements that it started from. Where only the fact of a failure matters, and not the error, the
same is said of `Fails`. What all errors of a computation have in common is said by `Raises`, with a
rule for each way in which computations are put together.
-/

set_option autoImplicit false

namespace AlgebraicModel.Outcome

variable {ε δ β γ : Type}

theorem bind_eq_ok_iff {x : Except ε β} {f : β → Except ε γ} {c : γ} :
    x >>= f = .ok c ↔ ∃ b, x = .ok b ∧ f b = .ok c := by
  cases x with
  | error e =>
    constructor
    · intro h
      cases h
    · rintro ⟨b, hb, -⟩
      cases hb
  | ok b =>
    constructor
    · intro h
      exact ⟨b, rfl, h⟩
    · rintro ⟨b', hb, h⟩
      cases hb
      exact h

theorem map_eq_ok_iff {x : Except ε β} {f : β → γ} {c : γ} :
    f <$> x = .ok c ↔ ∃ b, x = .ok b ∧ f b = c := by
  cases x with
  | error e =>
    constructor
    · intro h
      cases h
    · rintro ⟨b, hb, -⟩
      cases hb
  | ok b =>
    constructor
    · intro h
      cases h
      exact ⟨b, rfl, rfl⟩
    · rintro ⟨b', hb, rfl⟩
      cases hb
      rfl

theorem mapError_eq_ok_iff {f : ε → δ} {x : Except ε β} {b : β} :
    x.mapError f = .ok b ↔ x = .ok b := by
  cases x with
  | error e =>
    constructor <;> intro h <;> cases h
  | ok b' =>
    constructor
    · intro h
      cases h
      rfl
    · intro h
      cases h
      rfl

/-- A traversal succeeds exactly when it succeeds at each element, and gives the results in
order. -/
theorem mapM_eq_ok_iff {f : β → Except ε γ} {xs : List β} {ys : List γ} :
    xs.mapM f = .ok ys ↔ List.Forall₂ (fun x y => f x = .ok y) xs ys := by
  induction xs generalizing ys with
  | nil =>
    rw [List.mapM_nil, List.forall₂_nil_left_iff]
    constructor
    · intro h
      cases h
      rfl
    · rintro rfl
      rfl
  | cons x xs ih =>
    simp only [List.mapM_cons, bind_eq_ok_iff, List.forall₂_cons_left_iff]
    constructor
    · rintro ⟨y, hy, ys', hys, h⟩
      cases h
      exact ⟨y, ys', hy, ih.1 hys, rfl⟩
    · rintro ⟨y, ys', hy, hys, rfl⟩
      exact ⟨y, hy, ys', ih.2 hys, rfl⟩

/-- What each result of a traversal says of the element it comes from, all results say of all
elements. -/
theorem forall_mem_iff_of_mapM {f : β → Except ε γ} {xs : List β} {ys : List γ} {P : γ → Prop}
    {Q : β → Prop} (h : xs.mapM f = .ok ys)
    (hpq : ∀ x ∈ xs, ∀ y, f x = .ok y → (P y ↔ Q x)) : (∀ y ∈ ys, P y) ↔ ∀ x ∈ xs, Q x := by
  have hf := mapM_eq_ok_iff.1 h
  clear h
  -- along the elements and their results, step by step
  induction hf with
  | nil => simp
  | @cons x y xs ys hxy _ ih =>
    have hrest : (∀ y ∈ ys, P y) ↔ ∀ x ∈ xs, Q x :=
      ih fun x' hx' => hpq x' (List.mem_cons_of_mem x hx')
    rw [List.forall_mem_cons, List.forall_mem_cons]
    exact and_congr (hpq x List.mem_cons_self y hxy) hrest

theorem forall_mem_of_mapM {f : β → Except ε γ} {xs : List β} {ys : List γ} {P : γ → Prop}
    (h : xs.mapM f = .ok ys) (hp : ∀ x ∈ xs, ∀ y, f x = .ok y → P y) : ∀ y ∈ ys, P y :=
  (forall_mem_iff_of_mapM (Q := fun _ => True) h fun x hx y hy => iff_true_intro (hp x hx y hy)).2
    fun _ _ => trivial

/-- Every result of a traversal comes from an element. -/
theorem exists_of_mem_mapM {f : β → Except ε γ} {xs : List β} {ys : List γ}
    (h : xs.mapM f = .ok ys) {y : γ} (hy : y ∈ ys) : ∃ x ∈ xs, f x = .ok y :=
  forall_mem_of_mapM (P := fun y => ∃ x ∈ xs, f x = .ok y) h
    (fun x hx _ hxy => ⟨x, hx, hxy⟩) y hy

theorem mapM_congr {f g : β → Except ε γ} {xs : List β} (h : ∀ x ∈ xs, f x = g x) :
    xs.mapM f = xs.mapM g := by
  induction xs with
  | nil => rfl
  | cons x xs ih =>
    obtain ⟨hx, hxs⟩ := List.forall_mem_cons.1 h
    rw [List.mapM_cons, List.mapM_cons, hx, ih hxs]

theorem mapM_eq_ok_map {f : β → Except ε γ} {g : β → γ} {xs : List β}
    (h : ∀ x ∈ xs, f x = .ok (g x)) : xs.mapM f = .ok (xs.map g) := by
  rw [mapM_eq_ok_iff, List.forall₂_map_right_iff, List.forall₂_same]
  exact h

/-- A traversal succeeds when it does so at every element. -/
theorem exists_mapM_eq_ok {f : β → Except ε γ} {xs : List β} (h : ∀ x ∈ xs, ∃ y, f x = .ok y) :
    ∃ ys, xs.mapM f = .ok ys := by
  induction xs with
  | nil => exact ⟨[], rfl⟩
  | cons x xs ih =>
    obtain ⟨y, hy⟩ := h x List.mem_cons_self
    obtain ⟨ys, hys⟩ := ih fun x' hx' => h x' (List.mem_cons_of_mem x hx')
    exact ⟨y :: ys, by rw [List.mapM_cons, hy, hys]; rfl⟩

/-! ## Failures -/

/-- The computation does not succeed. -/
def Fails (x : Except ε β) : Prop := ∃ e, x = .error e

theorem fails_iff_ne_ok {x : Except ε β} : Fails x ↔ ∀ b, x ≠ .ok b := by
  cases x with
  | error e => exact iff_of_true ⟨e, rfl⟩ fun b h => by cases h
  | ok b =>
    refine iff_of_false ?_ fun h => h b rfl
    rintro ⟨e, h⟩
    cases h

theorem not_fails_ok (b : β) : ¬ Fails (.ok b : Except ε β) := by
  rintro ⟨e, h⟩
  cases h

/-- A sequence fails where its first part does, or where what follows does. -/
theorem fails_bind_iff {x : Except ε β} {f : β → Except ε γ} :
    Fails (x >>= f) ↔ Fails x ∨ ∃ b, x = .ok b ∧ Fails (f b) := by
  cases x with
  | error e => exact iff_of_true ⟨e, rfl⟩ (.inl ⟨e, rfl⟩)
  | ok b =>
    constructor
    · intro h
      exact .inr ⟨b, rfl, h⟩
    · rintro (h | ⟨b', hb, h⟩)
      · exact absurd h (not_fails_ok b)
      · cases hb
        exact h

theorem fails_map_iff {x : Except ε β} {f : β → γ} : Fails (x.map f) ↔ Fails x := by
  cases x with
  | error e => exact iff_of_true ⟨e, rfl⟩ ⟨e, rfl⟩
  | ok b => exact iff_of_false (not_fails_ok (f b)) (not_fails_ok b)

theorem fails_mapError_iff {f : ε → δ} {x : Except ε β} : Fails (x.mapError f) ↔ Fails x := by
  simp only [fails_iff_ne_ok, Ne, mapError_eq_ok_iff]

/-- A traversal fails where it does so at some element. -/
theorem fails_mapM_iff {f : β → Except ε γ} {xs : List β} :
    Fails (xs.mapM f) ↔ ∃ x ∈ xs, Fails (f x) := by
  induction xs with
  | nil => exact iff_of_false (not_fails_ok []) (by simp)
  | cons x xs ih =>
    rw [List.mapM_cons, fails_bind_iff]
    simp only [fails_bind_iff, ih, List.exists_mem_cons_iff]
    constructor
    · rintro (h | ⟨y, -, h | ⟨ys, -, h⟩⟩)
      · exact .inl h
      · exact .inr h
      · exact absurd h (not_fails_ok _)
    · rintro (h | h)
      · exact .inl h
      · by_cases hx : Fails (f x)
        · exact .inl hx
        · cases hfx : f x with
          | error e => exact absurd ⟨e, hfx⟩ hx
          | ok y => exact .inr ⟨y, rfl, .inl h⟩

/-! ## Errors -/

/-- A sequence ends with the error of its first part, or with that of what follows. -/
theorem bind_eq_error_iff {x : Except ε β} {f : β → Except ε γ} {e : ε} :
    x >>= f = .error e ↔ x = .error e ∨ ∃ b, x = .ok b ∧ f b = .error e := by
  cases x with
  | error e' =>
    constructor
    · intro h
      cases h
      exact .inl rfl
    · rintro (h | ⟨b, hb, -⟩)
      · cases h
        rfl
      · cases hb
  | ok b =>
    constructor
    · intro h
      exact .inr ⟨b, rfl, h⟩
    · rintro (h | ⟨b', hb, h⟩)
      · cases h
      · cases hb
        exact h

theorem mapError_eq_error_iff {f : ε → δ} {x : Except ε β} {e : δ} :
    x.mapError f = .error e ↔ ∃ e', x = .error e' ∧ f e' = e := by
  cases x with
  | error e' =>
    constructor
    · intro h
      cases h
      exact ⟨e', rfl, rfl⟩
    · rintro ⟨e'', h, rfl⟩
      cases h
      rfl
  | ok b =>
    refine iff_of_false (fun h => by cases h) ?_
    rintro ⟨e', h, -⟩
    cases h

theorem map_eq_error_iff {x : Except ε β} {f : β → γ} {e : ε} :
    x.map f = .error e ↔ x = .error e := by
  cases x with
  | error e' =>
    constructor <;> intro h <;> cases h <;> rfl
  | ok b => exact iff_of_false (fun h => by cases h) fun h => by cases h

/-- The error of a traversal is that of an element. -/
theorem exists_of_mapM_eq_error {f : β → Except ε γ} {xs : List β} {e : ε}
    (h : xs.mapM f = .error e) : ∃ x ∈ xs, f x = .error e := by
  induction xs with
  | nil => cases h
  | cons x xs ih =>
    rw [List.mapM_cons] at h
    rcases bind_eq_error_iff.1 h with h | ⟨y, -, h⟩
    · exact ⟨x, List.mem_cons_self, h⟩
    rcases bind_eq_error_iff.1 h with h | ⟨ys, -, h⟩
    · obtain ⟨x', hx', h⟩ := ih h
      exact ⟨x', List.mem_cons_of_mem x hx', h⟩
    · cases h

/-- Every error that the computation can end with has the property. -/
def Raises (P : ε → Prop) (x : Except ε β) : Prop := ∀ e, x = .error e → P e

theorem raises_ok (P : ε → Prop) (b : β) : Raises P (.ok b) := by
  intro e h
  cases h

theorem raises_error {P : ε → Prop} {e : ε} (h : P e) : Raises P (.error e : Except ε β) := by
  intro e' he
  cases he
  exact h

theorem Raises.bind {P : ε → Prop} {x : Except ε β} {f : β → Except ε γ} (hx : Raises P x)
    (hf : ∀ b, Raises P (f b)) : Raises P (x >>= f) := by
  cases x with
  | error e => exact raises_error (hx e rfl)
  | ok b => exact hf b

/-- What is made of a result adds no error. -/
theorem Raises.map {P : ε → Prop} {x : Except ε β} (hx : Raises P x) (f : β → γ) :
    Raises P (x >>= fun b => pure (f b)) :=
  hx.bind fun b => raises_ok P (f b)

theorem raises_mapM {P : ε → Prop} {f : β → Except ε γ} {xs : List β}
    (h : ∀ x ∈ xs, Raises P (f x)) : Raises P (xs.mapM f) := by
  induction xs with
  | nil => exact raises_ok P []
  | cons x xs ih =>
    obtain ⟨hx, hxs⟩ := List.forall_mem_cons.1 h
    rw [List.mapM_cons]
    refine hx.bind ?_
    intro y
    exact (ih hxs).map (y :: ·)

end AlgebraicModel.Outcome
