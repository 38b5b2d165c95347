import AlgebraicModel.Expr.Eval
import AlgebraicModel.Proofs.Outcome
import Mathlib.Algebra.Order.Group.Unbundled.Int

/-!
# Integer arithmetic is exact or an error

The arithmetic expressions are those over integers and names of integers, with signs, distances from
zero and the five operations (`Expr.IsArithmetic`). Beside their evaluation on integers of 64 bits
stands their exact value over all integers (`Expr.exactValue?`), which a division has only where it
comes out even; the remainder is the one between zero and the divisor.

An integer that an evaluation gives is the exact value (`Expr.exactValue?_of_eval`). Where every
subexpression has an exact value in range, and no remainder is refused for its quotient, the
evaluation gives an integer (`Expr.eval_of_regular`). Otherwise the first subexpression that is at
fault, from left to right and innermost first, decides which error there is (`Expr.failsFirst`), as
long as the divisions before it come out even: a quotient that is not whole is a number, and what is
made of it is no longer integer arithmetic.
-/

set_option autoImplicit false

namespace AlgebraicModel

/-- Whether the operator computes a number from two numbers. -/
def BinaryOp.isArithmetic : BinaryOp → Bool
  | add | sub | mul | div | mod => true
  | _ => false

namespace Expr

/-! ## Exact values -/

/-- An operation over all integers, where its result is an integer. -/
def exactOperation? : BinaryOp → Int → Int → Option Int
  | .add, m, n => some (m + n)
  | .sub, m, n => some (m - n)
  | .mul, m, n => some (m * n)
  | .div, m, n => if n ≠ 0 ∧ n ∣ m then some (m / n) else none
  | .mod, m, n => if n ≠ 0 then some (m % n) else none
  | _, _, _ => none

/-- The value of an arithmetic expression over all integers, where it has one. -/
def exactValue? (b : Bindings) : Expr → Option Int
  | const (.int n) => some n.toInt
  | var x =>
    match b.resolve? x with
    | some (.scalar (.int n)) => some n.toInt
    | _ => none
  | unary .positive e => exactValue? b e
  | unary .negative e => (exactValue? b e).map fun n => -n
  | app ⟨"abs"⟩ [e] => (exactValue? b e).map fun n => (n.natAbs : Int)
  | binary op l r => do exactOperation? op (← exactValue? b l) (← exactValue? b r)
  | _ => none

/-- An expression of integer arithmetic. -/
inductive IsArithmetic (b : Bindings) : Expr → Prop where
  | const (n : Int64) : IsArithmetic b (.const (.int n))
  | var {x : Name} {n : Int64} (hx : b.resolve? x = some (.scalar (.int n))) :
      IsArithmetic b (.var x)
  | positive {e : Expr} (he : IsArithmetic b e) : IsArithmetic b (.unary .positive e)
  | negative {e : Expr} (he : IsArithmetic b e) : IsArithmetic b (.unary .negative e)
  | abs {e : Expr} (he : IsArithmetic b e) : IsArithmetic b (.app ⟨"abs"⟩ [e])
  | binary {op : BinaryOp} {l r : Expr} (hop : op.isArithmetic = true) (hl : IsArithmetic b l)
      (hr : IsArithmetic b r) : IsArithmetic b (.binary op l r)

/-- The subexpressions of an arithmetic expression in the order in which they are computed: from
left to right, each behind its own parts. -/
def inOrder : Expr → List Expr
  | unary op e => inOrder e ++ [unary op e]
  | app f [e] => inOrder e ++ [app f [e]]
  | binary op l r => inOrder l ++ inOrder r ++ [binary op l r]
  | e => [e]

/-! ## What can go wrong -/

/-- The remainder of the least integer by `-1`, which is refused since the quotient is out of
range. -/
def RemainderOverflows (op : BinaryOp) (m n : Int) : Prop :=
  op = .mod ∧ m = -2 ^ 63 ∧ n = -1

/-- A subexpression that has no integer of sixty-four bits for its value, although its parts have,
and the code of the error for it. -/
inductive Fault (b : Bindings) : Expr → ErrorCode → Prop where
  /-- The exact value is out of range. -/
  | range {e : Expr} {n : Int} (hn : e.exactValue? b = some n) (hrange : n < -2 ^ 63 ∨ 2 ^ 63 ≤ n) :
      Fault b e .integerOverflow
  /-- A remainder is refused. -/
  | remainder {op : BinaryOp} {l r : Expr} {m n : Int} (hl : l.exactValue? b = some m)
      (hr : r.exactValue? b = some n) (h : RemainderOverflows op m n) :
      Fault b (binary op l r) .integerOverflow
  /-- A divisor is zero. -/
  | zero {op : BinaryOp} {l r : Expr} (hop : op = .div ∨ op = .mod)
      (hr : r.exactValue? b = some 0) : Fault b (binary op l r) .divisionByZero

/-- A division that does not come out even. -/
inductive Inexact (b : Bindings) : Expr → Prop where
  | div {l r : Expr} {m n : Int} (hl : l.exactValue? b = some m) (hr : r.exactValue? b = some n)
      (hzero : n ≠ 0) (hdvd : ¬ n ∣ m) : Inexact b (binary .div l r)

/-- A subexpression that is not at fault, and whose division comes out even if it is one. -/
def Regular (b : Bindings) (e : Expr) : Prop := (∀ code, ¬ Fault b e code) ∧ ¬ Inexact b e

/-! ## One operation -/

theorem wholeResult_eq_ok_iff {failure : EvalError} {n : Int} {v : IndexValue} :
    wholeResult failure n = .ok v ↔ ∃ w, v = .int w ∧ w.toInt = n := by
  rw [wholeResult]
  cases hn : Word.ofInt? n with
  | none =>
    refine iff_of_false (fun h => by cases h) ?_
    rintro ⟨w, -, hw⟩
    rw [Word.ofInt?_eq_some_iff.mpr hw] at hn
    cases hn
  | some w =>
    have hw := Word.toInt_of_ofInt? hn
    constructor
    · intro h
      cases h
      exact ⟨w, rfl, hw⟩
    · rintro ⟨w', rfl, hw'⟩
      rw [← Int64.toInt_inj.mp (hw.trans hw'.symm)]

theorem wholeResult_of_out_of_range {n : Int} (h : n < -2 ^ 63 ∨ 2 ^ 63 ≤ n)
    (failure : EvalError) : wholeResult failure n = .error failure := by
  rw [wholeResult, Word.ofInt?_eq_none_iff.mpr h]

/-- An integer result is out of range or given back as it is. -/
theorem wholeResult_cases (failure : EvalError) (n : Int) :
    ((n < -2 ^ 63 ∨ 2 ^ 63 ≤ n) ∧ wholeResult failure n = .error failure) ∨
      ∃ w : Int64, w.toInt = n ∧ wholeResult failure n = .ok (.int w) := by
  cases hn : Word.ofInt? n with
  | none =>
    have hrange := Word.ofInt?_eq_none_iff.mp hn
    exact .inl ⟨hrange, wholeResult_of_out_of_range hrange failure⟩
  | some w =>
    have hw := Word.toInt_of_ofInt? hn
    exact .inr ⟨w, hw, wholeResult_eq_ok_iff.mpr ⟨w, rfl, hw⟩⟩

/-- A quotient of two integers of sixty-four bits is out of range for the least one by `-1` only. -/
theorem ofInt?_tdiv_eq_none_iff {m n : Int64} (hn : n.toInt ≠ 0) :
    Word.ofInt? (m.toInt.tdiv n.toInt) = none ↔ m.toInt = -2 ^ 63 ∧ n.toInt = -1 := by
  have hlow := m.le_toInt
  have hhigh := m.toInt_lt
  rw [Word.ofInt?_eq_none_iff]
  constructor
  · intro h
    have hquotient : (m.toInt.tdiv n.toInt).natAbs = m.toInt.natAbs / n.toInt.natAbs :=
      Int.natAbs_tdiv _ _
    by_cases hone : n.toInt.natAbs = 1
    · rcases Int.natAbs_eq n.toInt with h' | h' <;> rw [hone] at h'
      · rw [h'] at h
        simp at h
        omega
      · rw [h'] at h
        simp at h
        omega
    · -- by anything else the quotient is at most half as far from zero
      have hhalf : m.toInt.natAbs / n.toInt.natAbs ≤ m.toInt.natAbs / 2 :=
        Nat.div_le_div_left (by omega) (by decide)
      omega
  · rintro ⟨hm, hn⟩
    rw [hm, hn]
    decide

/-- What an operation on two integers can come to. -/
theorem wholeArithmetic_cases {op : BinaryOp} (hop : op.isArithmetic = true) (m n : Int64) :
    (∃ k, exactOperation? op m.toInt n.toInt = some k ∧ ¬ RemainderOverflows op m.toInt n.toInt ∧
        wholeArithmetic op m n = wholeResult (.overflow op m n) k) ∨
      (RemainderOverflows op m.toInt n.toInt ∧
        wholeArithmetic op m n = .error (.overflow op m n)) ∨
      ((op = .div ∨ op = .mod) ∧ n.toInt = 0 ∧
        wholeArithmetic op m n = .error (.divisionByZero (.int m))) ∨
      (op = .div ∧ n.toInt ≠ 0 ∧ ¬ n.toInt ∣ m.toInt ∧
        ∃ x, wholeArithmetic op m n = .ok (.float x)) := by
  cases op with
  | add | sub | mul => exact .inl ⟨_, rfl, by simp [RemainderOverflows], rfl⟩
  | div =>
    by_cases hzero : n.toInt = 0
    · exact .inr (.inr (.inl ⟨.inl rfl, hzero, by simp [wholeArithmetic, hzero]⟩))
    by_cases hdvd : n.toInt ∣ m.toInt
    · refine .inl ⟨m.toInt / n.toInt, by simp [exactOperation?, hzero, hdvd],
        by simp [RemainderOverflows], ?_⟩
      rw [wholeArithmetic, if_neg hzero, if_pos (Int.tmod_eq_zero_of_dvd hdvd),
        Int.tdiv_eq_ediv_of_dvd hdvd]
    · have hmod : m.toInt.tmod n.toInt ≠ 0 := fun h => hdvd (Int.dvd_of_tmod_eq_zero h)
      refine .inr (.inr (.inr ⟨rfl, hzero, hdvd, ?_⟩))
      simp only [wholeArithmetic, if_neg hzero, if_neg hmod]
      exact ⟨_, rfl⟩
  | mod =>
    by_cases hzero : n.toInt = 0
    · exact .inr (.inr (.inl ⟨.inr rfl, hzero, by simp [wholeArithmetic, hzero]⟩))
    cases hquotient : Word.ofInt? (m.toInt.tdiv n.toInt) with
    | none =>
      have hleast := (ofInt?_tdiv_eq_none_iff hzero).mp hquotient
      exact .inr (.inl ⟨⟨rfl, hleast⟩, by simp [wholeArithmetic, hzero, hquotient]⟩)
    | some w =>
      refine .inl ⟨m.toInt % n.toInt, by simp [exactOperation?, hzero], ?_,
        by simp [wholeArithmetic, hzero, hquotient]⟩
      rintro ⟨-, hleast⟩
      rw [(ofInt?_tdiv_eq_none_iff hzero).mpr hleast] at hquotient
      cases hquotient
  | _ => cases hop

theorem floatArithmetic_eq_ok {op : BinaryOp} {x y : Float} {v : IndexValue}
    (h : floatArithmetic op x y = .ok v) : ∃ z, v = .float z := by
  unfold floatArithmetic at h
  split at h
  case h_4 | h_5 =>
    split at h
    · cases h
    · cases h
      exact ⟨_, rfl⟩
  all_goals
    cases h
    exact ⟨_, rfl⟩

/-! ## Evaluation, one node at a time -/

/-- The number that an operand comes to. -/
def operand [Closeness] (b : Bindings) (e : Expr) : Except EvalError IndexValue := do
  asNumber e (← e.eval b)

section Nodes

variable {b : Bindings} {e l r : Expr} {op : BinaryOp}

theorem exactValue?_binary {m n : Int} (hl : l.exactValue? b = some m)
    (hr : r.exactValue? b = some n) : (binary op l r).exactValue? b = exactOperation? op m n := by
  rw [exactValue?, hl, hr]
  rfl

theorem exactValue?_of_zero (hop : op = .div ∨ op = .mod) (hr : r.exactValue? b = some 0) :
    (binary op l r).exactValue? b = none := by
  rw [exactValue?, hr]
  rcases hop with rfl | rfl
  · cases l.exactValue? b <;> simp [exactOperation?]
  · cases l.exactValue? b <;> simp [exactOperation?]

variable [Closeness]

theorem operand_of_eval {n : Int64} (h : e.eval b = .ok (.scalar (.int n))) :
    operand b e = pure (.int n) := by
  rw [operand, h]
  rfl

theorem operand_of_error {err : EvalError} (h : e.eval b = .error err) :
    operand b e = .error err := by
  rw [operand, h]
  rfl

theorem eval_positive : (unary .positive e).eval b = do return .scalar (← operand b e) := by
  rw [eval, operand]
  cases e.eval b <;> rfl

theorem eval_negative :
    (unary .negative e).eval b = do return .scalar (← negation (← operand b e)) := by
  rw [eval, operand]
  cases e.eval b <;> rfl

theorem eval_abs :
    (app ⟨"abs"⟩ [e]).eval b = do return .scalar (← absolute (← operand b e)) := by
  have hname : Builtin.ofName? ⟨"abs"⟩ = some .abs := by decide
  simp only [eval, hname, operand]
  cases e.eval b <;> rfl

theorem eval_binary (hop : op.isArithmetic = true) : (binary op l r).eval b = do
    let x ← operand b l
    let y ← operand b r
    return .scalar (← arithmetic op x y) := by
  cases op with
  | add | sub | mul | div | mod =>
    simp only [eval, operand]
    cases l.eval b with
    | error err => rfl
    | ok v => simp only [bind_assoc]
  | _ => cases hop

end Nodes

/-! ## An integer is the exact value -/

section Exactness

variable {b : Bindings} {e l r : Expr} {op : BinaryOp}

/-- A remainder lies between zero and the divisor. -/
theorem exactValue?_mod {k : Int} (h : (binary .mod l r).exactValue? b = some k) :
    ∃ m d, l.exactValue? b = some m ∧ r.exactValue? b = some d ∧ k = m % d ∧ 0 ≤ k ∧ k < |d| := by
  rw [exactValue?] at h
  obtain ⟨m, hm, h⟩ := Option.bind_eq_some_iff.mp h
  obtain ⟨d, hd, h⟩ := Option.bind_eq_some_iff.mp h
  obtain ⟨hzero, h⟩ := Option.ite_none_right_eq_some.mp h
  cases h
  exact ⟨m, d, hm, hd, rfl, Int.emod_nonneg m hzero, Int.emod_lt_abs m hzero⟩

/-- A number that an expression may come to: its exact value as an integer, or a number that is not
an integer. -/
inductive ComesTo (b : Bindings) (e : Expr) : IndexValue → Prop where
  | int {n : Int64} (h : e.exactValue? b = some n.toInt) : ComesTo b e (.int n)
  | float (x : Float) : ComesTo b e (.float x)

theorem comesTo_negation {x y : IndexValue} (hx : ComesTo b e x) (h : negation x = .ok y) :
    ComesTo b (unary .negative e) y := by
  cases hx with
  | int hn =>
    obtain ⟨w, rfl, hw⟩ := wholeResult_eq_ok_iff.mp h
    apply ComesTo.int
    rw [exactValue?, hn, hw, Option.map_some]
  | float x =>
    cases h
    exact .float _

theorem comesTo_absolute {x y : IndexValue} (hx : ComesTo b e x) (h : absolute x = .ok y) :
    ComesTo b (app ⟨"abs"⟩ [e]) y := by
  cases hx with
  | int hn =>
    rw [absolute] at h
    obtain ⟨w, rfl, hw⟩ := wholeResult_eq_ok_iff.mp h
    apply ComesTo.int
    rw [exactValue?, hn, hw, Option.map_some]
  | float x =>
    cases h
    exact .float _

theorem comesTo_arithmetic (hop : op.isArithmetic = true) {x y z : IndexValue}
    (hx : ComesTo b l x) (hy : ComesTo b r y) (h : arithmetic op x y = .ok z) :
    ComesTo b (binary op l r) z := by
  -- only two integers are computed with as integers
  have hrounded {x' y' : Float} (h : floatArithmetic op x' y' = .ok z) :
      ComesTo b (binary op l r) z := by
    obtain ⟨z, rfl⟩ := floatArithmetic_eq_ok h
    exact .float z
  cases hx with
  | float x => exact hrounded h
  | @int m hm =>
    cases hy with
    | float y => exact hrounded h
    | @int n hn =>
      change wholeArithmetic op m n = .ok z at h
      rcases wholeArithmetic_cases hop m n with
        ⟨k, hk, -, heq⟩ | ⟨-, heq⟩ | ⟨-, -, heq⟩ | ⟨-, -, -, x, heq⟩
      · rw [heq] at h
        obtain ⟨w, rfl, hw⟩ := wholeResult_eq_ok_iff.mp h
        apply ComesTo.int
        rw [exactValue?_binary hm hn, hk, hw]
      · rw [heq] at h
        cases h
      · rw [heq] at h
        cases h
      · rw [heq] at h
        cases h
        exact .float x

variable [Closeness]

theorem comesTo_operand (he : ∀ v, e.eval b = .ok v → ∃ x, v = .scalar x ∧ ComesTo b e x)
    {x : IndexValue} (hx : operand b e = .ok x) : ComesTo b e x := by
  obtain ⟨v, hv, hx⟩ := Outcome.bind_eq_ok_iff.mp hx
  obtain ⟨y, rfl, hy⟩ := he v hv
  cases hy with
  | int h =>
    cases hx
    exact .int h
  | float y =>
    cases hx
    exact .float y

/-- An arithmetic expression comes to its exact value, or to a number that is not an integer. The
induction follows the expression. -/
theorem comesTo_of_eval (h : IsArithmetic b e) {v : Value} (hv : e.eval b = .ok v) :
    ∃ x, v = .scalar x ∧ ComesTo b e x := by
  induction h generalizing v with
  | const n =>
    rw [eval] at hv
    cases hv
    exact ⟨_, rfl, .int (by rw [exactValue?])⟩
  | @var x n hx =>
    rw [eval, hx] at hv
    cases hv
    exact ⟨_, rfl, .int (by rw [exactValue?, hx])⟩
  | @positive e _ ih =>
    rw [eval_positive] at hv
    obtain ⟨x, hx, hv⟩ := Outcome.bind_eq_ok_iff.mp hv
    cases hv
    refine ⟨x, rfl, ?_⟩
    cases comesTo_operand (fun _ => ih) hx with
    | int hn => exact .int (by rw [exactValue?, hn])
    | float x => exact .float x
  | @negative e _ ih =>
    rw [eval_negative] at hv
    obtain ⟨x, hx, hv⟩ := Outcome.bind_eq_ok_iff.mp hv
    obtain ⟨y, hy, hv⟩ := Outcome.bind_eq_ok_iff.mp hv
    cases hv
    exact ⟨y, rfl, comesTo_negation (comesTo_operand (fun _ => ih) hx) hy⟩
  | @abs e _ ih =>
    rw [eval_abs] at hv
    obtain ⟨x, hx, hv⟩ := Outcome.bind_eq_ok_iff.mp hv
    obtain ⟨y, hy, hv⟩ := Outcome.bind_eq_ok_iff.mp hv
    cases hv
    exact ⟨y, rfl, comesTo_absolute (comesTo_operand (fun _ => ih) hx) hy⟩
  | binary hop _ _ ihl ihr =>
    rw [eval_binary hop] at hv
    obtain ⟨x, hx, hv⟩ := Outcome.bind_eq_ok_iff.mp hv
    obtain ⟨y, hy, hv⟩ := Outcome.bind_eq_ok_iff.mp hv
    obtain ⟨z, hz, hv⟩ := Outcome.bind_eq_ok_iff.mp hv
    cases hv
    exact ⟨z, rfl, comesTo_arithmetic hop (comesTo_operand (fun _ => ihl) hx)
      (comesTo_operand (fun _ => ihr) hy) hz⟩

theorem exactValue?_of_eval (h : IsArithmetic b e) {n : Int64}
    (hn : e.eval b = .ok (.scalar (.int n))) : e.exactValue? b = some n.toInt := by
  obtain ⟨x, hx, hcomes⟩ := comesTo_of_eval h hn
  cases hx
  cases hcomes with
  | int hexact => exact hexact

end Exactness

/-! ## The first fault -/

section Faults

variable {b : Bindings} {e l r : Expr} {op : BinaryOp}

/-- What is at fault is so in one way. -/
theorem Fault.code_unique {code code' : ErrorCode} (h : Fault b e code) (h' : Fault b e code') :
    code = code' := by
  cases h with
  | range hn hrange =>
    cases h' with
    | range => rfl
    | remainder => rfl
    | zero hop hr =>
      rw [exactValue?_of_zero hop hr] at hn
      cases hn
  | remainder hl hr hover =>
    cases h' with
    | range => rfl
    | remainder => rfl
    | zero hop hr' =>
      obtain ⟨-, -, rfl⟩ := hover
      rw [hr] at hr'
      cases hr'
  | zero hop hr =>
    cases h' with
    | range hn hrange =>
      rw [exactValue?_of_zero hop hr] at hn
      cases hn
    | remainder hl hr' hover =>
      obtain ⟨-, -, rfl⟩ := hover
      rw [hr'] at hr
      cases hr
    | zero => rfl

theorem not_range (n : Int64) : ¬ (n.toInt < -2 ^ 63 ∨ 2 ^ 63 ≤ n.toInt) := by
  have hlow := n.le_toInt
  have hhigh := n.toInt_lt
  omega

/-- Only an operation with two operands can be at fault while its exact value is in range. -/
theorem not_fault_of_exact {n : Int64} (hn : e.exactValue? b = some n.toInt)
    (hbinary : ∀ op l r, e ≠ binary op l r) (code : ErrorCode) : ¬ Fault b e code := by
  intro h
  cases h with
  | range hm hrange =>
    rw [hn] at hm
    cases hm
    exact not_range n hrange
  | remainder => exact hbinary _ _ _ rfl
  | zero => exact hbinary _ _ _ rfl

/-- The place of an element in two lists behind each other: in the first, or behind it. -/
theorem split_append {α : Type} {xs ys before after : List α} {x : α}
    (h : xs ++ ys = before ++ x :: after) :
    (∃ after', xs = before ++ x :: after') ∨
      ∃ before', before = xs ++ before' ∧ ys = before' ++ x :: after := by
  rcases List.append_eq_append_iff.mp h with ⟨before', rfl, hys⟩ | ⟨zs, rfl, hys⟩
  · exact .inr ⟨before', rfl, hys⟩
  · cases zs with
    | nil => exact .inr ⟨[], by simp, hys.symm⟩
    | cons z zs =>
      cases hys
      exact .inl ⟨zs, rfl⟩

/-- The place of an element in a list with one more at its end: before the end, or there. -/
theorem split_concat {α : Type} {xs before after : List α} {x y : α}
    (h : xs ++ [y] = before ++ x :: after) :
    (∃ after', xs = before ++ x :: after') ∨ before = xs ∧ x = y := by
  rcases split_append h with hxs | ⟨before', rfl, hy⟩
  · exact .inl hxs
  · cases before' with
    | nil =>
      cases hy
      exact .inr ⟨by simp, rfl⟩
    | cons => simp at hy

/-- An expression whose exact value is in range, and which is no refused remainder, is regular. -/
theorem regular_of_exact {n : Int} (hn : e.exactValue? b = some n)
    (hrange : ¬ (n < -2 ^ 63 ∨ 2 ^ 63 ≤ n))
    (hmod : ∀ l r, e = binary .mod l r →
      ¬ (l.exactValue? b = some (-2 ^ 63) ∧ r.exactValue? b = some (-1))) : Regular b e := by
  constructor
  · rintro code (⟨hn', hout⟩ | ⟨hl, hr, rfl, rfl, rfl⟩ | ⟨hop, hr⟩)
    · rw [hn] at hn'
      cases hn'
      exact hrange hout
    · exact hmod _ _ rfl ⟨hl, hr⟩
    · rw [exactValue?_of_zero hop hr] at hn
      cases hn
  · rintro ⟨hl, hr, hzero, hdvd⟩
    rw [exactValue?_binary hl hr] at hn
    simp [exactOperation?, hdvd] at hn

/-- Where something is at fault, something is at fault first. -/
theorem exists_first_fault {es : List Expr} (h : ∃ x ∈ es, ∃ code, Fault b x code) :
    ∃ before x after code, es = before ++ x :: after ∧
      (∀ y ∈ before, ∀ code, ¬ Fault b y code) ∧ Fault b x code := by
  induction es with
  | nil => simp at h
  | cons e es ih =>
    by_cases he : ∃ code, Fault b e code
    · obtain ⟨code, hcode⟩ := he
      exact ⟨[], e, es, code, rfl, by simp, hcode⟩
    · have hbehind : ∃ x ∈ es, ∃ code, Fault b x code := by
        obtain ⟨x, hx, hcode⟩ := h
        rcases List.mem_cons.mp hx with rfl | hx
        · exact absurd hcode he
        · exact ⟨x, hx, hcode⟩
      obtain ⟨before, x, after, code, rfl, hbefore, hcode⟩ := ih hbehind
      refine ⟨e :: before, x, after, code, rfl, ?_, hcode⟩
      rw [List.forall_mem_cons]
      exact ⟨fun code hcode => he ⟨code, hcode⟩, hbefore⟩

variable [Closeness]

/-- What an expression comes to whose parts have come to their exact values. -/
inductive Step (b : Bindings) (e : Expr) : Prop where
  | value {n : Int64} (heval : e.eval b = .ok (.scalar (.int n)))
      (hn : e.exactValue? b = some n.toInt) (hfault : ∀ code, ¬ Fault b e code)
  | fault {err : EvalError} (heval : e.eval b = .error err) (hfault : Fault b e err.code)
  | inexact (h : Inexact b e) (hfault : ∀ code, ¬ Fault b e code)

theorem Step.exists_of_regular (h : Step b e) (hreg : Regular b e) :
    ∃ n : Int64, e.eval b = .ok (.scalar (.int n)) ∧ e.exactValue? b = some n.toInt := by
  cases h with
  | value heval hn => exact ⟨_, heval, hn⟩
  | fault heval hfault => exact absurd hfault (hreg.1 _)
  | inexact h => exact absurd h hreg.2

theorem Step.exists_of_fault (h : Step b e) {code : ErrorCode} (hfault : Fault b e code) :
    ∃ err, e.eval b = .error err ∧ err.code = code := by
  cases h with
  | value _ _ hnone => exact absurd hfault (hnone code)
  | fault heval hfault' => exact ⟨_, heval, hfault'.code_unique hfault⟩
  | inexact _ hnone => exact absurd hfault (hnone code)

theorem step_of_exact {n : Int64} (heval : e.eval b = .ok (.scalar (.int n)))
    (hn : e.exactValue? b = some n.toInt) (hbinary : ∀ op l r, e ≠ binary op l r) : Step b e :=
  .value heval hn (not_fault_of_exact hn hbinary)

/-- A sign or a distance from zero: the result is in range, or it is the error. -/
theorem step_of_wholeResult (failure : EvalError) {k : Int}
    (hcode : failure.code = .integerOverflow) (hexact : e.exactValue? b = some k)
    (heval : e.eval b = do return .scalar (← wholeResult failure k))
    (hbinary : ∀ op l r, e ≠ binary op l r) : Step b e := by
  rcases wholeResult_cases failure k with ⟨hrange, hresult⟩ | ⟨w, rfl, hresult⟩
  · rw [hresult] at heval
    refine .fault heval ?_
    rw [hcode]
    exact .range hexact hrange
  · rw [hresult] at heval
    exact step_of_exact heval hexact hbinary

theorem step_binary {m n : Int64} (hop : op.isArithmetic = true)
    (hl : l.eval b = .ok (.scalar (.int m))) (hm : l.exactValue? b = some m.toInt)
    (hr : r.eval b = .ok (.scalar (.int n))) (hn : r.exactValue? b = some n.toInt) :
    Step b (binary op l r) := by
  have heval : (binary op l r).eval b = do return .scalar (← wholeArithmetic op m n) := by
    rw [eval_binary hop, operand_of_eval hl, operand_of_eval hr]
    rfl
  have hexact : (binary op l r).exactValue? b = exactOperation? op m.toInt n.toInt :=
    exactValue?_binary hm hn
  rcases wholeArithmetic_cases hop m n with
    ⟨k, hk, hover, heq⟩ | ⟨hover, heq⟩ | ⟨hdiv, hzero, heq⟩ | ⟨rfl, hzero, hdvd, x, heq⟩
  · rw [hk] at hexact
    rw [heq] at heval
    rcases wholeResult_cases (.overflow op m n) k with ⟨hrange, hresult⟩ | ⟨w, rfl, hresult⟩
    · rw [hresult] at heval
      exact .fault heval (.range hexact hrange)
    · rw [hresult] at heval
      refine .value heval hexact ?_
      rintro code (⟨hk', hrange⟩ | ⟨hl', hr', hover'⟩ | ⟨hop', hr'⟩)
      · rw [hexact] at hk'
        cases hk'
        exact not_range w hrange
      · rw [hm] at hl'
        rw [hn] at hr'
        cases hl'
        cases hr'
        exact hover hover'
      · rw [exactValue?_of_zero hop' hr'] at hexact
        cases hexact
  · rw [heq] at heval
    exact .fault heval (.remainder hm hn hover)
  · rw [heq] at heval
    rw [hzero] at hn
    exact .fault heval (.zero hdiv hn)
  · refine .inexact (.div hm hn hzero hdvd) ?_
    rintro code (⟨hk', hrange⟩ | ⟨hl', hr', ⟨hmod, -⟩⟩ | ⟨hop', hr'⟩)
    · rw [hexact] at hk'
      simp [exactOperation?, hdvd] at hk'
    · cases hmod
    · rw [hn] at hr'
      exact hzero (Option.some.inj hr')

theorem step_negative {n : Int64} (heval : e.eval b = .ok (.scalar (.int n)))
    (hn : e.exactValue? b = some n.toInt) : Step b (unary .negative e) := by
  apply step_of_wholeResult (.negationOverflow n) (k := -n.toInt) rfl
  · rw [exactValue?, hn, Option.map_some]
  · rw [eval_negative, operand_of_eval heval, pure_bind, negation]
  · simp

theorem step_abs {n : Int64} (heval : e.eval b = .ok (.scalar (.int n)))
    (hn : e.exactValue? b = some n.toInt) : Step b (app ⟨"abs"⟩ [e]) := by
  apply step_of_wholeResult (.absOverflow n) (k := n.toInt.natAbs) rfl
  · rw [exactValue?, hn, Option.map_some]
  · rw [eval_abs, operand_of_eval heval, pure_bind, absolute]
  · simp

theorem step_positive {n : Int64} (heval : e.eval b = .ok (.scalar (.int n)))
    (hn : e.exactValue? b = some n.toInt) : Step b (unary .positive e) := by
  apply step_of_exact (n := n)
  · rw [eval_positive, operand_of_eval heval]
    rfl
  · rw [exactValue?, hn]
  · simp

theorem step_const (n : Int64) : Step b (const (.int n)) :=
  step_of_exact (by rw [eval]) (by rw [exactValue?]) (by simp)

theorem step_var {x : Name} {n : Int64} (hx : b.resolve? x = some (.scalar (.int n))) :
    Step b (var x) :=
  step_of_exact (by rw [eval, hx]) (by rw [exactValue?, hx]) (by simp)

/-- The only part has come to its exact value, and the expression is regular itself. -/
theorem eval_of_regular_part {e' : Expr} (hparts : e'.inOrder = e.inOrder ++ [e'])
    (hpart : (∀ x ∈ e.inOrder, Regular b x) →
      ∃ n : Int64, e.eval b = .ok (.scalar (.int n)) ∧ e.exactValue? b = some n.toInt)
    (hstep : ∀ {n : Int64}, e.eval b = .ok (.scalar (.int n)) → e.exactValue? b = some n.toInt →
      Step b e') (hreg : ∀ x ∈ e'.inOrder, Regular b x) :
    ∃ n : Int64, e'.eval b = .ok (.scalar (.int n)) ∧ e'.exactValue? b = some n.toInt := by
  rw [hparts, List.forall_mem_append, List.forall_mem_singleton] at hreg
  obtain ⟨n, heval, hn⟩ := hpart hreg.1
  exact (hstep heval hn).exists_of_regular hreg.2

/-- Where every subexpression is regular, the evaluation gives the exact value. The induction
follows the expression, whose parts come before it. -/
theorem eval_of_regular (h : IsArithmetic b e) (hreg : ∀ x ∈ e.inOrder, Regular b x) :
    ∃ n : Int64, e.eval b = .ok (.scalar (.int n)) ∧ e.exactValue? b = some n.toInt := by
  induction h with
  | const n => exact (step_const n).exists_of_regular (hreg _ (by simp [inOrder]))
  | var hx => exact (step_var hx).exists_of_regular (hreg _ (by simp [inOrder]))
  | positive _ ih => exact eval_of_regular_part (by rw [inOrder]) ih step_positive hreg
  | negative _ ih => exact eval_of_regular_part (by rw [inOrder]) ih step_negative hreg
  | abs _ ih => exact eval_of_regular_part (by rw [inOrder]) ih step_abs hreg
  | @binary op l r hop _ _ ihl ihr =>
    rw [inOrder, List.forall_mem_append, List.forall_mem_append] at hreg
    obtain ⟨m, hl, hm⟩ := ihl hreg.1.1
    obtain ⟨n, hr, hn⟩ := ihr hreg.1.2
    exact (step_binary hop hl hm hr hn).exists_of_regular (hreg.2 _ List.mem_cons_self)

/-- An expression fails as its first subexpression that is at fault, where everything before that
one is regular. -/
def FailsFirst (b : Bindings) (e : Expr) : Prop :=
  ∀ ⦃before after : List Expr⦄ ⦃x : Expr⦄ ⦃code : ErrorCode⦄, e.inOrder = before ++ x :: after →
    (∀ y ∈ before, Regular b y) → Fault b x code → ∃ err, e.eval b = .error err ∧ err.code = code

/-- An expression without parts has nothing before it. -/
theorem FailsFirst.of_step (hparts : e.inOrder = [e]) (h : Step b e) : FailsFirst b e := by
  intro before after x code hx _ hfault
  rw [hparts] at hx
  cases before with
  | nil =>
    cases hx
    exact h.exists_of_fault hfault
  | cons => simp at hx

/-- The fault is in the only part, or the part has come to its exact value. -/
theorem FailsFirst.of_part {e' : Expr} (hparts : e'.inOrder = e.inOrder ++ [e'])
    (he : IsArithmetic b e) (hpart : FailsFirst b e)
    (hfail : ∀ {err}, e.eval b = .error err → e'.eval b = .error err)
    (hstep : ∀ {n : Int64}, e.eval b = .ok (.scalar (.int n)) → e.exactValue? b = some n.toInt →
      Step b e') : FailsFirst b e' := by
  intro before after x code hx hreg hfault
  rw [hparts] at hx
  rcases split_concat hx with ⟨after', hx⟩ | ⟨rfl, rfl⟩
  · obtain ⟨err, herr, hcode⟩ := hpart hx hreg hfault
    exact ⟨err, hfail herr, hcode⟩
  · obtain ⟨n, heval, hn⟩ := eval_of_regular he hreg
    exact (hstep heval hn).exists_of_fault hfault

/-- The fault is in the left part; or in the right one, and the left one has come to its exact
value; or both have. -/
theorem FailsFirst.of_parts (hop : op.isArithmetic = true) (hl : IsArithmetic b l)
    (hr : IsArithmetic b r) (hleft : FailsFirst b l) (hright : FailsFirst b r) :
    FailsFirst b (binary op l r) := by
  intro before after x code hx hreg hfault
  rcases split_concat hx with ⟨after', hx⟩ | ⟨rfl, rfl⟩
  · rcases split_append hx with ⟨after', hx⟩ | ⟨before', rfl, hbehind⟩
    · obtain ⟨err, herr, hcode⟩ := hleft hx hreg hfault
      refine ⟨err, ?_, hcode⟩
      rw [eval_binary hop, operand_of_error herr]
      rfl
    · rw [List.forall_mem_append] at hreg
      obtain ⟨m, heval, -⟩ := eval_of_regular hl hreg.1
      obtain ⟨err, herr, hcode⟩ := hright hbehind hreg.2 hfault
      refine ⟨err, ?_, hcode⟩
      rw [eval_binary hop, operand_of_eval heval, operand_of_error herr]
      rfl
  · rw [List.forall_mem_append] at hreg
    obtain ⟨m, heval, hm⟩ := eval_of_regular hl hreg.1
    obtain ⟨n, heval', hn⟩ := eval_of_regular hr hreg.2
    exact (step_binary hop heval hm heval' hn).exists_of_fault hfault

/-- The induction follows the expression. -/
theorem failsFirst (h : IsArithmetic b e) : FailsFirst b e := by
  induction h with
  | const n => exact FailsFirst.of_step (by simp [inOrder]) (step_const n)
  | var hv => exact FailsFirst.of_step (by simp [inOrder]) (step_var hv)
  | positive he ih =>
    apply FailsFirst.of_part (by rw [inOrder]) he ih _ step_positive
    intro err herr
    rw [eval_positive, operand_of_error herr]
    rfl
  | negative he ih =>
    apply FailsFirst.of_part (by rw [inOrder]) he ih _ step_negative
    intro err herr
    rw [eval_negative, operand_of_error herr]
    rfl
  | abs he ih =>
    apply FailsFirst.of_part (by rw [inOrder]) he ih _ step_abs
    intro err herr
    rw [eval_abs, operand_of_error herr]
    rfl
  | binary hop hl hr ihl ihr => exact FailsFirst.of_parts hop hl hr ihl ihr

/-- Integer arithmetic is exact or an error. An integer is the exact value, and a remainder lies
between zero and the divisor. There is an integer where every subexpression has an exact value in
range and the least integer is nowhere divided by `-1` for the remainder. Where a subexpression is
at fault, and no division in front of all faults is uneven, the error is the one for the first
fault. -/
theorem exact_or_error_of_isArithmetic (h : IsArithmetic b e) :
    (∀ n : Int64, e.eval b = .ok (.scalar (.int n)) → e.exactValue? b = some n.toInt ∧
      ∀ l r, e = binary .mod l r → ∃ m d, l.exactValue? b = some m ∧ r.exactValue? b = some d ∧
        n.toInt = m % d ∧ 0 ≤ n.toInt ∧ n.toInt < |d|) ∧
    ((∀ x ∈ e.inOrder, ∃ n, x.exactValue? b = some n ∧ -2 ^ 63 ≤ n ∧ n < 2 ^ 63) →
      (∀ l r, binary .mod l r ∈ e.inOrder →
        ¬ (l.exactValue? b = some (-2 ^ 63) ∧ r.exactValue? b = some (-1))) →
      ∃ n : Int64, e.eval b = .ok (.scalar (.int n)) ∧ e.exactValue? b = some n.toInt) ∧
    ((∀ before x after, e.inOrder = before ++ x :: after → Inexact b x →
        ∃ y ∈ before, ∃ code, Fault b y code) →
      (∃ x ∈ e.inOrder, ∃ code, Fault b x code) →
      ∃ before x after code err, e.inOrder = before ++ x :: after ∧
        (∀ y ∈ before, ∀ code, ¬ Fault b y code) ∧ Fault b x code ∧
        e.eval b = .error err ∧ err.code = code) := by
  refine ⟨fun n hn => ?_, fun hrange hmod => ?_, fun heven hfault => ?_⟩
  · have hexact := exactValue?_of_eval h hn
    refine ⟨hexact, ?_⟩
    rintro l r rfl
    exact exactValue?_mod hexact
  · apply eval_of_regular h
    intro x hx
    obtain ⟨n, hn, hlow, hhigh⟩ := hrange x hx
    apply regular_of_exact hn (by omega)
    rintro l r rfl
    exact hmod l r hx
  · obtain ⟨before, x, after, code, hsplit, hbefore, hcode⟩ := exists_first_fault hfault
    have hreg : ∀ y ∈ before, Regular b y := by
      refine fun y hy => ⟨hbefore y hy, fun hinexact => ?_⟩
      obtain ⟨before', after', rfl⟩ := List.append_of_mem hy
      obtain ⟨z, hz, code', hcode'⟩ :=
        heven before' y (after' ++ x :: after) (by simp [hsplit]) hinexact
      exact hbefore z (List.mem_append_left _ hz) code' hcode'
    obtain ⟨err, heval, herr⟩ := failsFirst h hsplit hreg hcode
    exact ⟨before, x, after, code, err, hsplit, hbefore, hcode, heval, herr⟩

end Faults

/-- The greatest integer and one are out of range, although one less is not; and a remainder by a
negative divisor is computed. -/
theorem exact_or_error_at_greatest :
    let b := Bindings.ofParams (Params.empty.insert ⟨"N"⟩ (.scalar (.int Int64.maxValue)))
    let sum := binary .add (var ⟨"N"⟩) (const (.int 1))
    let difference := binary .sub sum (const (.int 1))
    let remainder := binary .mod (const (.int (-7))) (const (.int (-3)))
    (∃ err, difference.eval b = .error err ∧ err.code = .integerOverflow) ∧
      ∃ n : Int64, remainder.eval b = .ok (.scalar (.int n)) ∧
        remainder.exactValue? b = some n.toInt := by
  intro b sum difference remainder
  have hdifference : IsArithmetic b difference :=
    .binary rfl (.binary rfl (.var rfl) (.const 1)) (.const 1)
  have hremainder : IsArithmetic b remainder := .binary rfl (.const (-7)) (.const (-3))
  constructor
  · have hnone {op : BinaryOp} {l r : Expr} {before after : List Expr}
        (h : difference.inOrder = before ++ binary op l r :: after) :
        ¬ (op = .div ∨ op = .mod) := by
      have hmem : binary op l r ∈ difference.inOrder := by simp [h]
      simp [difference, sum, inOrder] at hmem
      rcases hmem with ⟨rfl, -⟩ | ⟨rfl, -⟩
      · decide
      · decide
    obtain ⟨before, x, after, code, err, hsplit, -, hfault, heval, herr⟩ :=
      (exact_or_error_of_isArithmetic hdifference).2.2
        (fun before x after hsplit ⟨_, _, _, _⟩ => absurd (.inl rfl) (hnone hsplit))
        ⟨sum, by simp [difference, sum, inOrder], _, .range (n := 2 ^ 63) rfl (.inr (le_refl _))⟩
    refine ⟨err, heval, herr.trans ?_⟩
    -- nothing is divided, and so nothing is divided by zero
    cases hfault with
    | range => rfl
    | remainder => rfl
    | zero hop => exact absurd hop (hnone hsplit)
  · have hparts : remainder.inOrder = [const (.int (-7)), const (.int (-3)), remainder] := rfl
    refine (exact_or_error_of_isArithmetic hremainder).2.1 ?_ ?_
    · rw [hparts, List.forall_mem_cons, List.forall_mem_cons, List.forall_mem_singleton]
      exact ⟨⟨-7, rfl, by decide⟩, ⟨-3, rfl, by decide⟩, ⟨2, rfl, by decide⟩⟩
    · rintro l r hmem ⟨hl, -⟩
      simp [hparts, remainder] at hmem
      rw [hmem.1] at hl
      cases hl

end Expr

end AlgebraicModel
