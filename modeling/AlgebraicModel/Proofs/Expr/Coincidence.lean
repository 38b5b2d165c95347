import AlgebraicModel.Expr.Eval
import AlgebraicModel.Proofs.Expr.Names

/-!
# Evaluation depends on the mentioned names only

An expression has the same value, or fails in the same way, under any two bindings that resolve the
names it mentions alike (`Expr.eval_congr`). Binding an index that is not mentioned changes nothing
(`Expr.eval_pushAll`), so where no index set depends on an index declared before it, each set can be
evaluated with no index bound at all.
-/

set_option autoImplicit false

namespace AlgebraicModel

namespace Expr

variable [Closeness] {b b' : Bindings}

/-! ## Lists of operands -/

theorem evalScalars_congr {es : List Expr} (h : ∀ e ∈ es, e.eval b = e.eval b') :
    evalScalars b es = evalScalars b' es := by
  induction es with
  | nil => rfl
  | cons e es ih =>
    obtain ⟨he, hes⟩ := List.forall_mem_cons.mp h
    rw [evalScalars, evalScalars, he, ih hes]

theorem evalNumbers_congr {es : List Expr} (h : ∀ e ∈ es, e.eval b = e.eval b') :
    evalNumbers b es = evalNumbers b' es := by
  induction es with
  | nil => rfl
  | cons e es ih =>
    obtain ⟨he, hes⟩ := List.forall_mem_cons.mp h
    rw [evalNumbers, evalNumbers, he, ih hes]

/-- A built-in function sees its arguments only. The cases are those of `eval`: a function of one
argument, applied to one or to another number, and a function of a set or of several numbers. -/
theorem eval_app_congr {f : Name} {args : List Expr} (h : ∀ e ∈ args, e.eval b = e.eval b') :
    (app f args).eval b = (app f args).eval b' := by
  rw [eval.eq_def b, eval.eq_def b']
  dsimp only
  split
  · rfl
  · rw [h _ List.mem_cons_self]
  · rw [h _ List.mem_cons_self]
  · rfl
  · rfl
  · rfl
  · rw [h _ List.mem_cons_self]
  · rw [evalNumbers_congr h]

/-! ## Expressions -/

mutual

/-- Bindings that resolve the mentioned names alike give the same outcome. The induction follows the
expression: an operand mentions no more than the whole does, and what an operator makes of the
outcomes of its operands involves no bindings. -/
theorem eval_congr : ∀ e : Expr,
    (∀ n, e.mentions n = true → b.resolve? n = b'.resolve? n) → e.eval b = e.eval b'
  | const _, _ => rfl
  | var n, h => by
      have hn := h n (by simp [mentions])
      simp only [eval, hn]
  | range lo hi, h => by
      have hlo := eval_congr lo fun n hn => h n (by simp [mentions, hn])
      have hhi := eval_congr hi fun n hn => h n (by simp [mentions, hn])
      simp only [eval, hlo, hhi]
  | collection elements, h => by
      have helements := eval_congr_of_mem elements fun n hn => h n (by simp [mentions, hn])
      simp only [eval, evalScalars_congr helements]
  | app _ args, h =>
      eval_app_congr (eval_congr_of_mem args fun n hn => h n (by simp [mentions, hn]))
  | unary op e, h => by
      have he := eval_congr e fun n hn => h n (by simp [mentions, hn])
      simp only [eval, he]
  | binary op l r, h => by
      have hl := eval_congr l fun n hn => h n (by simp [mentions, hn])
      have hr := eval_congr r fun n hn => h n (by simp [mentions, hn])
      simp only [eval, hl, hr]
  | ite c t f, h => by
      have hc := eval_congr c fun n hn => h n (by simp [mentions, hn])
      have ht := eval_congr t fun n hn => h n (by simp [mentions, hn])
      have hf := eval_congr f fun n hn => h n (by simp [mentions, hn])
      simp only [eval, hc, ht, hf]

theorem eval_congr_of_mem : ∀ es : List Expr,
    (∀ n, anyMentions n es = true → b.resolve? n = b'.resolve? n) →
      ∀ e ∈ es, e.eval b = e.eval b'
  | [], _ => by simp
  | e :: es, h => by
      have he := eval_congr e fun n hn => h n (by simp [anyMentions, hn])
      have hes := eval_congr_of_mem es fun n hn => h n (by simp [anyMentions, hn])
      exact List.forall_mem_cons.mpr ⟨he, hes⟩

end

end Expr

/-! ## Bound indices -/

namespace Bindings

@[simp] theorem pushAll_nil_left (b : Bindings) (k : Key) : b.pushAll [] k = b := rfl

@[simp] theorem pushAll_nil_right (b : Bindings) (names : List Name) : b.pushAll names [] = b := by
  simp [pushAll]

@[simp] theorem pushAll_cons (b : Bindings) (n : Name) (names : List Name) (v : IndexValue)
    (k : Key) : b.pushAll (n :: names) (v :: k) = (b.push n v).pushAll names k := rfl

/-- An index hides every earlier meaning of its name and no other name. -/
theorem resolve?_push (b : Bindings) (n m : Name) (v : IndexValue) :
    (b.push n v).resolve? m = if m = n then some (.scalar v) else b.resolve? m := by
  by_cases h : m = n
  · simp [resolve?, index?, push, h]
  · have hne : (m == n) = false := beq_eq_false_iff_ne.mpr h
    simp [resolve?, index?, push, List.lookup_cons, h, hne]

/-- Names other than those of the bound indices mean what they meant. -/
theorem resolve?_pushAll {b : Bindings} {names : List Name} {k : Key} {m : Name}
    (h : m ∉ names) : (b.pushAll names k).resolve? m = b.resolve? m := by
  induction names generalizing b k with
  | nil => rw [pushAll_nil_left]
  | cons n names ih =>
    rw [List.mem_cons, not_or] at h
    obtain ⟨hne, hnames⟩ := h
    cases k with
    -- fewer values than names: the other names stay unbound
    | nil => rw [pushAll_nil_right]
    | cons v k => rw [pushAll_cons, ih hnames, resolve?_push, if_neg hne]

end Bindings

namespace Expr

/-- Binding indices that are not mentioned changes nothing. -/
theorem eval_pushAll [Closeness] {e : Expr} {names : List Name}
    (h : ∀ n ∈ names, e.mentions n = false) (b : Bindings) (k : Key) :
    e.eval (b.pushAll names k) = e.eval b := by
  apply eval_congr
  intro n hn
  apply Bindings.resolve?_pushAll
  intro hmem
  rw [h n hmem] at hn
  cases hn

/-- Free-name coincidence: bindings that resolve the names of an expression alike give it the same
value or the same failure. So where no set refers to an index declared before it, a set has the same
outcome with no index bound as under any values of the indices before it. -/
theorem coincidence [Closeness] :
    (∀ (e : Expr) (b b' : Bindings), (∀ n ∈ e.names, b.resolve? n = b'.resolve? n) →
      e.eval b = e.eval b') ∧
    ∀ (vars : List Name) (sets : List Expr), firstDependency? vars sets = none →
      ∀ (i : Nat) (e : Expr), sets[i]? = some e → ∀ (p : Params) (k : Key),
        e.eval ((Bindings.ofParams p).pushAll (vars.take i) k) = e.eval (.ofParams p) := by
  constructor
  · intro e b b' h
    apply eval_congr
    intro n hn
    exact h n (mem_names_iff.mpr hn)
  · intro vars sets hnone i e he p k
    -- the set mentions none of the indices before it
    exact eval_pushAll (firstDependency?_eq_none_iff.mp hnone i e he) _ k

/-- The set `1..N` under an index that it does not mention, and as the second of two index sets. -/
theorem coincidence_oneTo :
    (oneTo (var ⟨"N"⟩)).eval ((Bindings.ofParams ⟨[(⟨"N"⟩, .scalar (.int 2))]⟩).push ⟨"i"⟩ (.int 7)) =
      .ok (.set [.int 1, .int 2]) ∧
    firstDependency? [⟨"i"⟩, ⟨"j"⟩] [oneTo (var ⟨"N"⟩), oneTo (var ⟨"N"⟩)] = none ∧
    (oneTo (var ⟨"N"⟩)).eval
        ((Bindings.ofParams ⟨[(⟨"N"⟩, .scalar (.int 2))]⟩).pushAll [⟨"i"⟩] [.int 7]) =
      (oneTo (var ⟨"N"⟩)).eval (.ofParams ⟨[(⟨"N"⟩, .scalar (.int 2))]⟩) := by
  have hnone : firstDependency? [⟨"i"⟩, ⟨"j"⟩] [oneTo (var ⟨"N"⟩), oneTo (var ⟨"N"⟩)] = none := by
    decide +kernel
  refine ⟨?_, hnone, coincidence.2 _ _ hnone 1 _ rfl _ [.int 7]⟩
  rw [coincidence.1 _ _ (.ofParams ⟨[(⟨"N"⟩, .scalar (.int 2))]⟩)]
  · rfl
  · intro n hn
    have hmentions := mem_names_iff.mp hn
    have hN : (⟨"N"⟩ : Name) = n := by simpa [oneTo, mentions] using hmentions
    rw [Bindings.resolve?_push, if_neg (by rw [← hN]; decide)]

end Expr

end AlgebraicModel
