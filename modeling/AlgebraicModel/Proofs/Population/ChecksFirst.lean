import AlgebraicModel.Proofs.Population.Faults
import AlgebraicModel.Proofs.Population.Triangle

/-!
# Nothing is built before everything is checked

A population ends in one of three ways: with its container, with a fault that was found before the
first call, or with the failure of a call, which is then the last one. `ChecksFirst` says so of an
ending and the calls that led to it. Every population ends like this, over the plan of a declaration
and over the upper triangle of a symmetric matrix, and without a call it fails exactly for the
faults that were to be checked (`Declaration.population_checks_first`).
-/

set_option autoImplicit false

namespace AlgebraicModel

open Outcome (Fails)

variable {σ α β : Type}

/-- How a population ends that checks before it builds: its calls, its outcome and the state that it
leaves, where `s` is the state that it started from. -/
structure ChecksFirst (l : Label) (s : σ) (calls : List (Call α)) (ending : Except Error β × σ) :
    Prop where
  /-- A failure that is not that of a call comes before the first call. -/
  untouched : ∀ e, ending.1 = .error e → (∀ c ∈ calls, ¬ Fails c.result) →
    calls = [] ∧ ending.2 = s
  /-- A call that fails is the last one, and its failure is passed on under the label. -/
  stopped : ∀ before c after e, calls = before ++ c :: after → c.result = .error e →
    after = [] ∧ (∀ c' ∈ before, ¬ Fails c'.result) ∧ ending.1 = .error (l.attach e) ∧
      (l.attach e).kind = e.kind ∧ (l.attach e).code = e.code

namespace ChecksFirst

theorem of_error (l : Label) (s : σ) (e : Error) :
    ChecksFirst l s ([] : List (Call α)) ((.error e, s) : Except Error β × σ) where
  untouched _ _ _ := ⟨rfl, rfl⟩
  stopped _ _ _ _ hsplit _ := by simp at hsplit

theorem of_runAll (l : Label) (s s' : σ) (build : Builder σ α) (bs : List Bindings)
    (pack : List α → β) :
    ChecksFirst l s (build.runAll bs s).1
      ((Call.outcome l (build.runAll bs s).1).map pack, s') where
  untouched e he hcalls := by
    -- without a failing call there are elements to be packed
    obtain ⟨c, hc, hfails⟩ := Call.fails_outcome_iff.mp (Outcome.fails_map_iff.mp ⟨e, he⟩)
    exact absurd hfails (hcalls c hc)
  stopped before c after e hsplit hc := by
    obtain ⟨hafter, hbefore, hout⟩ := Builder.runAll_of_failure hsplit hc l
    refine ⟨hafter, hbefore, ?_, l.kind_attach e, l.code_attach e⟩
    rw [hout]
    rfl

end ChecksFirst

/-- Without a call, the packing of what came back cannot fail. -/
theorem Builder.ne_error_of_runAll_eq_nil {l : Label} {build : Builder σ α} {bs : List Bindings}
    {s : σ} (h : (build.runAll bs s).1 = []) (pack : List α → β) (e : Error) :
    (Call.outcome l (build.runAll bs s).1).map pack ≠ .error e := by
  rw [h]
  intro he
  cases he

namespace Plan

variable [Closeness]

theorem checksFirst (p : Plan) (l : Label) (params : Params) (build : Builder σ α) (s : σ) :
    ChecksFirst l s (p.calls l params build s) ((p.populate l params build).exec s) := by
  rw [exec_populate]
  cases hlayout : p.layout α l params with
  | error e =>
    rw [calls_of_layout_error hlayout]
    exact .of_error l s e
  | ok found =>
    rw [calls_of_layout hlayout]
    exact .of_runAll l s _ build _ _

/-- Without a call a population fails for the faults of its plan, and for nothing else. -/
theorem fails_without_calls_iff (p : Plan) (l : Label) (params : Params) (build : Builder σ α)
    (s : σ) :
    (∃ e, (p.populate l params build).exec s = (.error e, s) ∧ p.calls l params build s = []) ↔
      p.Fault params := by
  rw [← fails_layout_iff (α := α) (l := l), exec_populate]
  cases hlayout : p.layout α l params with
  | error e => exact iff_of_true ⟨e, rfl, calls_of_layout_error hlayout build s⟩ ⟨e, rfl⟩
  | ok found =>
    rw [calls_of_layout hlayout]
    refine iff_of_false ?_ (Outcome.not_fails_ok _)
    rintro ⟨e, hending, hcalls⟩
    exact Builder.ne_error_of_runAll_eq_nil hcalls found.2 e (congrArg Prod.fst hending)

end Plan

namespace Declaration

section

variable [Closeness]

/-- The calls of a symmetric matrix, in the order in which they were made. -/
def symmetricCalls (l : Label) (d : Declaration) (params : Params) (build : Builder σ α) (s : σ) :
    List (Call α) :=
  ((d.populateSymmetric l params build.traced).exec ([], s)).2.1

/-- The bindings of the upper triangle, row by row. -/
def upperBindings (d : Declaration) (params : Params) (n : Nat) : List Bindings :=
  (upperCells n).map fun (i, j) => d.bindingsAt params (cellKey i j)

/-- A symmetric matrix checks its declaration, and then makes the calls for the upper triangle. -/
theorem exec_populateSymmetric (l : Label) (d : Declaration) (params : Params)
    (build : Builder σ α) (s : σ) :
    (d.populateSymmetric l params build).exec s =
      match d.symmetricSize l params with
      | .error e => (.error e, s)
      | .ok n =>
        ((Call.outcome l (build.runAll (d.upperBindings params n) s).1).map
            fun upper => .dense (reflect n upper),
          (build.runAll (d.upperBindings params n) s).2) := by
  rw [populateSymmetric_eq, BuildM.exec_ofExcept_bind]
  cases d.symmetricSize l params with
  | error e => rfl
  | ok n =>
    have hcells := build.exec_mapM_labelled l
      (fun (i, j) => d.bindingsAt params (cellKey i j)) (upperCells n) s
    dsimp only
    rw [BuildM.exec_bind, hcells, upperBindings]
    cases Call.outcome l
      (build.runAll ((upperCells n).map fun (i, j) => d.bindingsAt params (cellKey i j)) s).1 <;>
      rfl

/-- A log changes nothing: with a traced description the outcome and the state are the same. -/
theorem exec_populateSymmetric_traced (l : Label) (d : Declaration) (params : Params)
    (build : Builder σ α) (log : List (Call α)) (s : σ) :
    (d.populateSymmetric l params build.traced).exec (log, s) =
      (((d.populateSymmetric l params build).exec s).1,
        (log ++ d.symmetricCalls l params build s,
          ((d.populateSymmetric l params build).exec s).2)) := by
  rw [symmetricCalls, exec_populateSymmetric, exec_populateSymmetric, exec_populateSymmetric]
  cases d.symmetricSize l params with
  | error e => simp
  | ok n => simp [Builder.runAll_traced]

theorem symmetricCalls_eq (l : Label) (d : Declaration) (params : Params) (build : Builder σ α)
    (s : σ) :
    d.symmetricCalls l params build s =
      match d.symmetricSize l params with
      | .error _ => []
      | .ok n => (build.runAll (d.upperBindings params n) s).1 := by
  rw [symmetricCalls, exec_populateSymmetric]
  cases d.symmetricSize l params with
  | error e => rfl
  | ok n => simp [Builder.runAll_traced]

theorem checksFirst_symmetric (l : Label) (d : Declaration) (params : Params)
    (build : Builder σ α) (s : σ) :
    ChecksFirst l s (d.symmetricCalls l params build s)
      ((d.populateSymmetric l params build).exec s) := by
  rw [exec_populateSymmetric, symmetricCalls_eq]
  cases d.symmetricSize l params with
  | error e => exact .of_error l s e
  | ok n => exact .of_runAll l s _ build _ _

/-- Without a call a symmetric matrix fails where its declaration is not that of one, and nowhere
else. -/
theorem symmetric_fails_without_calls_iff (l : Label) (d : Declaration) (params : Params)
    (build : Builder σ α) (s : σ) :
    (∃ e, (d.populateSymmetric l params build).exec s = (.error e, s) ∧
        d.symmetricCalls l params build s = []) ↔
      ∀ n, ¬ d.IsSymmetric params n := by
  simp only [← symmetricSize_eq_ok_iff (l := l)]
  rw [← Outcome.fails_iff_ne_ok, exec_populateSymmetric, symmetricCalls_eq]
  cases d.symmetricSize l params with
  | error e => exact iff_of_true ⟨e, rfl, rfl⟩ ⟨e, rfl⟩
  | ok n =>
    refine iff_of_false ?_ (Outcome.not_fails_ok n)
    rintro ⟨e, hending, hcalls⟩
    exact Builder.ne_error_of_runAll_eq_nil hcalls _ e (congrArg Prod.fst hending)

/-- A population of a declaration checks first, over its plan and as a symmetric matrix: a failure
that is not that of a call leaves the description uncalled, a failing call is the last one and its
failure is the outcome, and what fails without a call are the faults that were to be checked. -/
theorem population_checks_first (d : Declaration) (l : Label) (params : Params)
    (build : Builder σ α) (s : σ) :
    (∀ p, d.plan l = .ok p →
      ChecksFirst l s (p.calls l params build s) ((p.populate l params build).exec s) ∧
      ((∃ e, (p.populate l params build).exec s = (.error e, s) ∧
        p.calls l params build s = []) ↔ p.Fault params)) ∧
    ChecksFirst l s (d.symmetricCalls l params build s)
      ((d.populateSymmetric l params build).exec s) ∧
    ((∃ e, (d.populateSymmetric l params build).exec s = (.error e, s) ∧
      d.symmetricCalls l params build s = []) ↔ ∀ n, ¬ d.IsSymmetric params n) := by
  refine ⟨?_, d.checksFirst_symmetric l params build s,
    d.symmetric_fails_without_calls_iff l params build s⟩
  intro p _
  exact ⟨p.checksFirst l params build s, p.fails_without_calls_iff l params build s⟩

end

/-- The condition `1 % (2 - i) == 0` over `1..2` can be evaluated for the first index only, and so
no element is built for that one either. -/
example :
    let condition : Expr := .binary .eq
      (.binary .mod (.const (.int 1)) (.binary .sub (.const (.int 2)) (.var ⟨"i"⟩)))
      (.const (.int 0))
    let d : Declaration := ⟨none, [⟨⟨"i"⟩, .oneTo (.const (.int 2))⟩], some condition, .map⟩
    let build : Builder Nat Nat := fun _ => ExceptT.mk fun n => (.ok n, n + 1)
    (Plan.calls ⟨d, .map⟩ ⟨"x"⟩ ⟨[]⟩ build 0).length = 0 ∧
      ((Plan.populate ⟨d, .map⟩ ⟨"x"⟩ ⟨[]⟩ build).exec 0).2 = 0 ∧
      ((Plan.populate ⟨d, .map⟩ ⟨"x"⟩ ⟨[]⟩ build).exec 0).1.toOption.isNone := by
  decide +kernel

end Declaration

end AlgebraicModel
