import AlgebraicModel.Population.Basic
import AlgebraicModel.Proofs.Outcome

/-!
# The calls of a description

A population calls its description once for each key, in the order of the keys, and stops at the
first failure. `Builder.traced` is the description that also keeps a log of its calls, and
`Plan.calls` is what it has in its log after a population.

Building the elements of a list of keys comes down to `Builder.runAll`, the calls that a description
gets for a list of bindings (`Builder.exec_mapM_labelled`). Among these a call that fails is the
last one, and its failure is the outcome (`Builder.runAll_of_failure`). A traced description makes
the same calls and leaves the same state, and its log is these calls (`Builder.runAll_traced`), so
keeping the log disturbs nothing.
-/

set_option autoImplicit false

namespace AlgebraicModel

variable {σ α β : Type}

/-- One call of a description: the bindings that it got, and what it gave back. -/
structure Call (α : Type) where
  bindings : Bindings
  result : Except Error α

namespace BuildM

/-- The outcome of a computation from a state, and the state that it leaves. -/
def exec (x : BuildM σ α) (s : σ) : Except Error α × σ := x.run s

theorem exec_bind (x : BuildM σ α) (f : α → BuildM σ β) (s : σ) :
    (x >>= f).exec s =
      match x.exec s with
      | (.ok a, s') => (f a).exec s'
      | (.error e, s') => (.error e, s') := by
  have hrun : (x >>= f).exec s = ExceptT.bindCont f (x.exec s).1 (x.exec s).2 := rfl
  rw [hrun]
  obtain ⟨r, s'⟩ := x.exec s
  cases r <;> rfl

theorem exec_labelled (l : Label) (x : BuildM σ α) (s : σ) :
    (labelled l x).exec s = ((x.exec s).1.mapError l.attach, (x.exec s).2) := by
  obtain ⟨⟨r, s'⟩, hexec⟩ : ∃ p, x.exec s = p := ⟨_, rfl⟩
  have hrun : x.run s = pure (r, s') := hexec
  rw [hexec, exec, labelled, ExceptT.run_mk]
  -- both sides reduce once the outcome is a success or a failure
  cases r <;> simp only [bind, StateT.bind, hrun] <;> rfl

/-- An error at the start, or a computation that goes on. -/
theorem exec_ofExcept_bind (x : Except Error α) (f : α → BuildM σ β) (s : σ) :
    (ofExcept x >>= f).exec s =
      match x with
      | .ok a => (f a).exec s
      | .error e => (.error e, s) := by
  rw [exec_bind]
  cases x <;> rfl

/-- A computation on the first part of a state keeps the second part. -/
theorem exec_onFirst {τ : Type} (x : BuildM σ α) (s : σ) (t : τ) :
    (onFirst x).exec (s, t) = ((x.exec s).1, ((x.exec s).2, t)) := rfl

/-- A computation on the second part of a state keeps the first part. -/
theorem exec_onSecond {τ : Type} (x : BuildM τ α) (s : σ) (t : τ) :
    (onSecond x).exec (s, t) = ((x.exec t).1, (s, (x.exec t).2)) := rfl

/-- A sequence succeeds where its first part does and then what follows. -/
theorem exec_bind_eq_ok_iff {x : BuildM σ α} {f : α → BuildM σ β} {s s' : σ} {b : β} :
    (x >>= f).exec s = (.ok b, s') ↔
      ∃ a s₁, x.exec s = (.ok a, s₁) ∧ (f a).exec s₁ = (.ok b, s') := by
  rw [exec_bind]
  obtain ⟨r, s₁⟩ := x.exec s
  cases r with
  | error e =>
    refine iff_of_false (fun h => by cases h) ?_
    rintro ⟨a, s₁', h, -⟩
    cases h
  | ok a =>
    constructor
    · intro h
      exact ⟨a, s₁, rfl, h⟩
    · rintro ⟨a', s₁', h, hf⟩
      cases h
      exact hf

/-- A sequence fails where its first part does, or where what follows does. -/
theorem exec_bind_eq_error_iff {x : BuildM σ α} {f : α → BuildM σ β} {s s' : σ} {e : Error} :
    (x >>= f).exec s = (.error e, s') ↔ x.exec s = (.error e, s') ∨
      ∃ a s₁, x.exec s = (.ok a, s₁) ∧ (f a).exec s₁ = (.error e, s') := by
  rw [exec_bind]
  obtain ⟨r, s₁⟩ := x.exec s
  cases r with
  | error e' => simp
  | ok a => simp

theorem exec_get_bind (f : σ → BuildM σ β) (s : σ) : (get >>= f).exec s = (f s).exec s := rfl

end BuildM

namespace Builder

variable (build : Builder σ α)

/-- The description that also keeps a log of its calls. -/
def traced : Builder (List (Call α) × σ) α := fun b =>
  ExceptT.mk fun (calls, s) =>
    let (r, s') := (build b).exec s
    (r, (calls ++ [⟨b, r⟩], s'))

theorem exec_traced (b : Bindings) (calls : List (Call α)) (s : σ) :
    (build.traced b).exec (calls, s) =
      (((build b).exec s).1, (calls ++ [⟨b, ((build b).exec s).1⟩], ((build b).exec s).2)) := rfl

/-- The calls for a list of bindings, up to the first that fails, and the state after them. -/
def runAll : List Bindings → σ → List (Call α) × σ
  | [], s => ([], s)
  | b :: bs, s =>
    match (build b).exec s with
    | (.ok a, s') => (⟨b, .ok a⟩ :: (runAll bs s').1, (runAll bs s').2)
    | (.error e, s') => ([⟨b, .error e⟩], s')

/-- A traced description makes the same calls, adds them to its log, and leaves the same state. -/
theorem runAll_traced (bs : List Bindings) (calls : List (Call α)) (s : σ) :
    build.traced.runAll bs (calls, s) =
      ((build.runAll bs s).1, (calls ++ (build.runAll bs s).1, (build.runAll bs s).2)) := by
  induction bs generalizing calls s with
  | nil => simp [runAll]
  | cons b bs ih =>
    rw [runAll, runAll, exec_traced]
    obtain ⟨r, s'⟩ := (build b).exec s
    cases r with
    | ok a => simp [ih, List.append_assoc]
    | error e => rfl

end Builder

/-- What the calls of a population come to: the elements that they gave back, or the failure of the
first that failed, with the label. -/
def Call.outcome (l : Label) (calls : List (Call α)) : Except Error (List α) :=
  calls.mapM fun call => call.result.mapError l.attach

namespace Call

@[simp] theorem outcome_cons_ok (l : Label) (b : Bindings) (a : α) (calls : List (Call α)) :
    outcome l (⟨b, .ok a⟩ :: calls) = (outcome l calls).map (a :: ·) := by
  rw [outcome, List.mapM_cons]
  rfl

@[simp] theorem outcome_cons_error (l : Label) (b : Bindings) (e : Error) (calls : List (Call α)) :
    outcome l (⟨b, .error e⟩ :: calls) = .error (l.attach e) := by
  rw [outcome, List.mapM_cons]
  rfl

/-- The outcome is a failure where a call failed. -/
theorem fails_outcome_iff {l : Label} {calls : List (Call α)} :
    Outcome.Fails (outcome l calls) ↔ ∃ c ∈ calls, Outcome.Fails c.result := by
  simp only [outcome, Outcome.fails_mapM_iff, Outcome.fails_mapError_iff]

end Call

namespace Builder

/-- Building along a list is making the calls for its bindings. -/
theorem exec_mapM_labelled {γ : Type} (build : Builder σ α) (l : Label) (f : γ → Bindings)
    (xs : List γ) (s : σ) :
    (xs.mapM fun x => BuildM.labelled l (build (f x))).exec s =
      (Call.outcome l (build.runAll (xs.map f) s).1, (build.runAll (xs.map f) s).2) := by
  induction xs generalizing s with
  | nil => rfl
  | cons x xs ih =>
    rw [List.mapM_cons, BuildM.exec_bind, BuildM.exec_labelled, List.map_cons, runAll]
    obtain ⟨r, s'⟩ := (build (f x)).exec s
    cases r with
    | error e => rfl
    | ok a =>
      -- the calls for the rest start from the state that the first call leaves
      simp only [Except.mapError, BuildM.exec_bind, ih s', Call.outcome_cons_ok]
      cases Call.outcome l (build.runAll (xs.map f) s').1 <;> rfl

/-- A call that fails is the last one, all before it succeeded, and its failure is the outcome. -/
theorem runAll_of_failure {build : Builder σ α} {bs : List Bindings} {s : σ}
    {before after : List (Call α)} {c : Call α} {e : Error}
    (hsplit : (build.runAll bs s).1 = before ++ c :: after) (hc : c.result = .error e) (l : Label) :
    after = [] ∧ (∀ c' ∈ before, ¬ Outcome.Fails c'.result) ∧
      Call.outcome l (build.runAll bs s).1 = .error (l.attach e) := by
  induction bs generalizing s before with
  | nil => simp [runAll] at hsplit
  | cons b bs ih =>
    rw [runAll] at hsplit ⊢
    obtain ⟨⟨r, s'⟩, hexec⟩ : ∃ out, (build b).exec s = out := ⟨_, rfl⟩
    rw [hexec] at hsplit ⊢
    cases r with
    | error e' =>
      dsimp only at hsplit ⊢
      cases before with
      | nil =>
        cases hsplit
        cases hc
        exact ⟨rfl, by simp, Call.outcome_cons_error _ _ _ _⟩
      | cons c' before => simp at hsplit
    | ok a =>
      dsimp only at hsplit ⊢
      cases before with
      | nil =>
        -- the first call succeeded, so it is not the one that failed
        cases hsplit
        cases hc
      | cons c' before =>
        obtain ⟨rfl, hrest⟩ := List.cons.inj hsplit
        obtain ⟨hafter, hbefore, hout⟩ := ih hrest
        refine ⟨hafter, List.forall_mem_cons.mpr ⟨Outcome.not_fails_ok a, hbefore⟩, ?_⟩
        rw [Call.outcome_cons_ok, hout]
        rfl

/-- Where no call failed, every bindings had its call and gave back its element. -/
theorem runAll_of_outcome_eq_ok {l : Label} {build : Builder σ α} {bs : List Bindings} {s : σ}
    {es : List α} (h : Call.outcome l (build.runAll bs s).1 = .ok es) :
    bs.length = es.length ∧
      (build.runAll bs s).1 = List.zipWith (fun b a => ⟨b, .ok a⟩) bs es := by
  induction bs generalizing s es with
  | nil =>
    cases h
    exact ⟨rfl, rfl⟩
  | cons b bs ih =>
    rw [runAll] at h ⊢
    generalize (build b).exec s = out at h ⊢
    obtain ⟨r, s'⟩ := out
    cases r with
    | error e => cases h
    -- the first call gave back `a`, and the rest is a run of its own
    | ok a =>
      simp only [Call.outcome_cons_ok] at h ⊢
      obtain ⟨es', hes', rfl⟩ := Outcome.map_eq_ok_iff.mp h
      obtain ⟨hlength, hcalls⟩ := ih hes'
      exact ⟨by simp [hlength], by rw [hcalls]; rfl⟩

end Builder

namespace Plan

/-- Building the elements of a list of keys is making the calls for their bindings. -/
theorem exec_buildAll (p : Plan) (l : Label) (params : Params) (build : Builder σ α)
    (ks : List Key) (s : σ) :
    (p.buildAll l params build ks).exec s =
      (Call.outcome l (build.runAll (ks.map (p.declaration.bindingsAt params)) s).1,
        (build.runAll (ks.map (p.declaration.bindingsAt params)) s).2) :=
  build.exec_mapM_labelled l (p.declaration.bindingsAt params) ks s

/-- The calls of a population, in the order in which they were made. -/
def calls [Closeness] (p : Plan) (l : Label) (params : Params) (build : Builder σ α) (s : σ) :
    List (Call α) :=
  ((p.populate l params build.traced).exec ([], s)).2.1

end Plan

end AlgebraicModel
