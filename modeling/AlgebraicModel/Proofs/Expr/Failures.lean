import AlgebraicModel.Population.Keys
import AlgebraicModel.Proofs.Label
import AlgebraicModel.Proofs.Outcome

/-!
# What an evaluation can fail with

The message of a failed evaluation may begin with a name or with the text of a value. It does so
only where the name is that of a built-in function and the value is a number (`EvalError.IsRaised`),
which holds of every error of an expression (`Expr.raises_eval`) and so of the index sets and the
condition of a declaration (`Declaration.raises_enumerateKeys`). Such a message never begins like a
label (`EvalError.IsRaised.not_isLabelled`), whatever names the expression uses.
-/

set_option autoImplicit false

namespace AlgebraicModel

open Outcome (Raises raises_ok raises_error raises_mapM)

/-! ## Texts of numbers -/

/-- No character of the text is the one that a label begins with. -/
def IsPlainText (cs : List Char) : Prop := ∀ c ∈ cs, c ≠ 'I'

theorem IsPlainText.append {cs ds : List Char} (hcs : IsPlainText cs) (hds : IsPlainText ds) :
    IsPlainText (cs ++ ds) :=
  List.forall_mem_append.mpr ⟨hcs, hds⟩

theorem isPlainText_toDigits (n : Nat) : IsPlainText (Nat.toDigits 10 n) := by
  rintro c hc rfl
  cases Nat.isDigit_of_mem_toDigits (by decide) (by decide) hc

theorem isPlainText_replicate_zero (n : Nat) : IsPlainText (List.replicate n '0') := by
  intro c hc
  rw [List.eq_of_mem_replicate hc]
  decide

theorem Decimal.isPlainText_positional (d : Decimal) : IsPlainText d.positional := by
  have hdigits := isPlainText_toDigits d.digits
  -- both parts of a split are made of digits, and of zeros around them
  have hsplit : IsPlainText d.split.1 ∧ IsPlainText d.split.2 := by
    rw [split]
    dsimp only
    split
    · exact ⟨hdigits.append (isPlainText_replicate_zero _), by simp [IsPlainText]⟩
    · have hpadded := (isPlainText_replicate_zero
        ((-d.exponent).toNat + 1 - (Nat.toDigits 10 d.digits).length)).append hdigits
      exact ⟨fun c hc => hpadded c (List.mem_of_mem_take hc),
        fun c hc => hpadded c (List.mem_of_mem_drop hc)⟩
  rw [positional]
  dsimp only
  split
  · exact hsplit.1
  · exact hsplit.1.append (List.forall_mem_cons.mpr ⟨by decide, hsplit.2⟩)

theorem Binary64.isPlainText_magnitudeText (m : Nat) : IsPlainText (magnitudeText m) := by
  unfold magnitudeText
  split
  · simp [IsPlainText]
  · split
    · simp [IsPlainText]
    · split
      · simp [IsPlainText]
      · exact Decimal.isPlainText_positional _

theorem Binary64.isPlainText_text (x : Float) : IsPlainText (text x).toList := by
  rw [text, String.toList_ofList]
  split
  · exact List.forall_mem_cons.mpr ⟨by decide, isPlainText_magnitudeText _⟩
  · exact isPlainText_magnitudeText _

theorem isPlainText_toString (n : Int) : IsPlainText (toString n).toList := by
  rw [Int.toString_eq_repr]
  cases n with
  | ofNat n =>
    rw [Int.repr, Nat.toList_repr]
    exact isPlainText_toDigits n
  | negSucc n =>
    rw [Int.repr, String.toList_append, Nat.toList_repr]
    exact IsPlainText.append (by simp [IsPlainText]) (isPlainText_toDigits _)

theorem IndexValue.isPlainText_text {v : IndexValue} (h : v.float?.isSome = true) :
    IsPlainText v.text.toList := by
  cases v with
  | int n => exact isPlainText_toString n.toInt
  | float x => exact Binary64.isPlainText_text x
  | str s => cases h

/-- In front of a text that begins otherwise than a label a text without that character does not
matter. -/
theorem Label.BeginsPlain.prepend {s t : String} (ht : BeginsPlain t)
    (hs : IsPlainText s.toList) : BeginsPlain (s ++ t) := by
  obtain ⟨c, htc, hc⟩ := ht
  cases hd : s.toList with
  | nil => exact ⟨c, by rw [String.toList_append, hd, List.nil_append, htc], hc⟩
  | cons d ds =>
    refine ⟨d, by rw [String.toList_append, hd, List.cons_append, List.head?_cons], hs d ?_⟩
    rw [hd]
    exact List.mem_cons_self

/-! ## Messages -/

theorem Builtin.beginsPlain_of_ofName? {f : Name} (h : (ofName? f).isSome = true) :
    Label.BeginsPlain f.text := by
  have htext : f.text = "len" ∨ f.text = "abs" ∨ f.text = "min" ∨ f.text = "max" := by
    by_contra hnone
    simp only [not_or] at hnone
    simp [ofName?, hnone] at h
  rcases htext with hf | hf | hf | hf
  all_goals
    rw [hf]
    exact Label.beginsPlain_ofList _ (by decide)

namespace EvalError

/-- An error that an evaluation can end with: what it says of a function it says of a built-in one,
and what it says was divided is a number. -/
def IsRaised : EvalError → Prop
  | divisionByZero v => v.float?.isSome = true
  | noArgument f | notOneArgument f | ofBoolean f | ofNonNumeric f _ | ofEmptySet f =>
    (Builtin.ofName? f).isSome = true
  | _ => True

/-- Such a message never begins like a label. The other messages begin with words of their own. -/
theorem IsRaised.beginsPlain {e : EvalError} (h : e.IsRaised) : Label.BeginsPlain e.message := by
  unfold message overflowText
  cases e
  -- the messages that begin with a value or with a name
  case divisionByZero v =>
    exact (Label.beginsPlain_ofList _ (by decide)).prepend (IndexValue.isPlainText_text h)
  case noArgument | notOneArgument | ofBoolean | ofEmptySet =>
    exact (Builtin.beginsPlain_of_ofName? h).append _
  case ofNonNumeric =>
    exact ((Builtin.beginsPlain_of_ofName? h).append _).append _
  all_goals
    repeat' with_reducible apply Label.BeginsPlain.append
    exact Label.beginsPlain_ofList _ (by decide)

theorem IsRaised.not_isLabelled {e : EvalError} (h : e.IsRaised) :
    ¬ (Error.ofCause e).IsLabelled :=
  Error.not_isLabelled_ofCause h.beginsPlain

end EvalError

namespace Expr

open EvalError (IsRaised)

variable {b : Bindings}

/-! ## Operations -/

theorem raises_wholeResult {failure : EvalError} (h : failure.IsRaised) (n : Int) :
    Raises IsRaised (wholeResult failure n) := by
  rw [wholeResult]
  split
  · exact raises_ok _ _
  · exact raises_error h

theorem raises_wholeArithmetic (op : BinaryOp) (x y : Int64) :
    Raises IsRaised (wholeArithmetic op x y) := by
  have hoverflow : (EvalError.overflow op x y).IsRaised := trivial
  have hzero : (EvalError.divisionByZero (.int x)).IsRaised := rfl
  unfold wholeArithmetic
  dsimp only
  split
  · exact raises_wholeResult hoverflow _
  · exact raises_wholeResult hoverflow _
  · exact raises_wholeResult hoverflow _
  · split
    · exact raises_error hzero
    · split
      · exact raises_wholeResult hoverflow _
      · exact raises_ok _ _
  · split
    · exact raises_error hzero
    · split
      · exact raises_error hoverflow
      · exact raises_wholeResult hoverflow _

theorem raises_floatArithmetic (op : BinaryOp) (x y : Float) :
    Raises IsRaised (floatArithmetic op x y) := by
  have hzero : (EvalError.divisionByZero (.float x)).IsRaised := rfl
  unfold floatArithmetic
  split
  · exact raises_ok _ _
  · exact raises_ok _ _
  · exact raises_ok _ _
  · split
    · exact raises_error hzero
    · exact raises_ok _ _
  · split
    · exact raises_error hzero
    · exact raises_ok _ _

theorem raises_arithmetic (op : BinaryOp) (l r : IndexValue) :
    Raises IsRaised (arithmetic op l r) := by
  unfold arithmetic
  split
  · exact raises_wholeArithmetic op _ _
  · exact raises_floatArithmetic op _ _

theorem raises_negation (v : IndexValue) : Raises IsRaised (negation v) := by
  cases v with
  | int n =>
    have hoverflow : (EvalError.negationOverflow n).IsRaised := trivial
    exact raises_wholeResult hoverflow _
  | float x => exact raises_ok _ _
  | str s => exact raises_ok _ _

theorem raises_absolute (v : IndexValue) : Raises IsRaised (absolute v) := by
  cases v with
  | int n =>
    have hoverflow : (EvalError.absOverflow n).IsRaised := trivial
    exact raises_wholeResult hoverflow n.toInt.natAbs
  | float x => exact raises_ok _ _
  | str s => exact raises_ok _ _

theorem raises_extremum {f : Name} (hf : (Builtin.ofName? f).isSome = true)
    (better : Float → Float → Bool) (best : Option (Float × IndexValue)) (vs : List IndexValue) :
    Raises IsRaised (extremum f better best vs) := by
  induction vs generalizing best with
  | nil =>
    cases best with
    | none => exact raises_error hf
    | some found => exact raises_ok _ _
  | cons v vs ih =>
    -- whatever the best candidate is now, the rest fails only in these ways
    simp only [extremum]
    cases v.float? with
    | none => exact raises_error hf
    | some x =>
      cases best with
      | none => exact ih _
      | some found => exact ih _

theorem raises_extremumOf {f : Name} (hf : (Builtin.ofName? f).isSome = true) (least : Bool)
    (vs : List IndexValue) : Raises IsRaised (extremumOf f least vs) :=
  raises_extremum hf _ none vs

/-! ## Operands of the right type -/

theorem raises_asScalar (e : Expr) (v : Value) : Raises IsRaised (asScalar e v) := by
  cases v with
  | scalar v => exact raises_ok _ _
  | bool v => exact raises_error trivial
  | set vs => exact raises_error trivial

theorem raises_asNumber (e : Expr) (v : Value) : Raises IsRaised (asNumber e v) := by
  refine (raises_asScalar e v).bind ?_
  intro n
  cases n with
  | int n => exact raises_ok _ _
  | float x => exact raises_ok _ _
  | str s => exact raises_error trivial

theorem raises_asRangeBound (e : Expr) (v : Value) : Raises IsRaised (asRangeBound e v) := by
  refine (raises_asScalar e v).bind ?_
  intro n
  split
  · exact raises_ok _ _
  · exact raises_error trivial

theorem raises_asBool (e : Expr) (v : Value) : Raises IsRaised (asBool e v) := by
  cases v with
  | scalar v => exact raises_error trivial
  | bool v => exact raises_ok _ _
  | set vs => exact raises_error trivial

theorem raises_asSet (e : Expr) (v : Value) : Raises IsRaised (asSet e v) := by
  cases v with
  | scalar v => exact raises_error trivial
  | bool v => exact raises_error trivial
  | set vs => exact raises_ok _ _

theorem raises_asCandidates {f : Name} (hf : (Builtin.ofName? f).isSome = true) (v : Value) :
    Raises IsRaised (asCandidates f v) := by
  cases v with
  | scalar v => exact raises_ok _ _
  | bool v => exact raises_error hf
  | set vs => exact raises_ok _ _

/-! ## Expressions -/

variable [Closeness]

theorem raises_evalScalars {es : List Expr} (h : ∀ e ∈ es, Raises IsRaised (e.eval b)) :
    Raises IsRaised (evalScalars b es) := by
  induction es with
  | nil => exact raises_ok _ _
  | cons e es ih =>
    obtain ⟨he, hes⟩ := List.forall_mem_cons.mp h
    rw [evalScalars]
    refine he.bind ?_
    intro v
    refine (raises_asScalar e v).bind ?_
    intro x
    exact (ih hes).map _

theorem raises_evalNumbers {es : List Expr} (h : ∀ e ∈ es, Raises IsRaised (e.eval b)) :
    Raises IsRaised (evalNumbers b es) := by
  induction es with
  | nil => exact raises_ok _ _
  | cons e es ih =>
    obtain ⟨he, hes⟩ := List.forall_mem_cons.mp h
    rw [evalNumbers]
    refine he.bind ?_
    intro v
    refine (raises_asNumber e v).bind ?_
    intro x
    exact (ih hes).map _

/-- The cases are those of `eval`: a function of one argument, applied to one or to another number,
and a function of a set or of several numbers. -/
theorem raises_eval_app {f : Name} {args : List Expr}
    (h : ∀ e ∈ args, Raises IsRaised (e.eval b)) : Raises IsRaised ((app f args).eval b) := by
  have hbuiltin {g : Builtin} (hg : Builtin.ofName? f = some g) :
      (Builtin.ofName? f).isSome = true := by rw [hg]; rfl
  unfold eval
  split
  · -- the name may be anything here, and the message puts it in quotes
    exact raises_error trivial
  · rename_i s hg
    refine (h s List.mem_cons_self).bind ?_
    intro v
    exact (raises_asSet s v).map _
  · rename_i x hg
    refine (h x List.mem_cons_self).bind ?_
    intro v
    refine (raises_asNumber x v).bind ?_
    intro n
    exact (raises_absolute n).map _
  · -- from here on every message may begin with the name, which is that of a built-in function
    rename_i hg _
    exact raises_error (hbuiltin hg)
  · rename_i hg _
    exact raises_error (hbuiltin hg)
  · rename_i g _ _ hg
    exact raises_error (hbuiltin hg)
  · rename_i g x _ _ hg
    refine (h x List.mem_cons_self).bind ?_
    intro v
    refine (raises_asCandidates (hbuiltin hg) v).bind ?_
    intro vs
    exact (raises_extremumOf (hbuiltin hg) _ vs).map _
  · rename_i g x y rest _ _ hg
    refine (raises_evalNumbers h).bind ?_
    intro vs
    exact (raises_extremumOf (hbuiltin hg) _ vs).map _

theorem raises_eval_unary {op : UnaryOp} {e : Expr} (h : Raises IsRaised (e.eval b)) :
    Raises IsRaised ((unary op e).eval b) := by
  unfold eval
  refine h.bind ?_
  intro v
  cases op with
  | not =>
    exact (raises_asBool e v).map _
  | positive =>
    exact (raises_asNumber e v).map _
  | negative =>
    refine (raises_asNumber e v).bind ?_
    intro n
    exact (raises_negation n).map _

/-- What is done with two operands, of which the second is evaluated after the first was checked. -/
theorem raises_operands {as : Expr → Value → Except EvalError IndexValue} {l r : Expr} {v : Value}
    {f : IndexValue → IndexValue → Except EvalError Value} (has : ∀ e v, Raises IsRaised (as e v))
    (hr : Raises IsRaised (r.eval b)) (hf : ∀ x y, Raises IsRaised (f x y)) :
    Raises IsRaised (do let x ← as l v; let y ← as r (← r.eval b); f x y) := by
  refine (has l v).bind ?_
  intro x
  refine hr.bind ?_
  intro w
  refine (has r w).bind ?_
  intro y
  exact hf x y

/-- The right side of a connective, where it matters. -/
theorem raises_rightSide {r : Expr} (hr : Raises IsRaised (r.eval b)) :
    Raises IsRaised (do return Value.bool (← asBool r (← r.eval b))) := by
  refine hr.bind ?_
  intro w
  exact (raises_asBool r w).map _

theorem raises_eval_binary {op : BinaryOp} {l r : Expr} (hl : Raises IsRaised (l.eval b))
    (hr : Raises IsRaised (r.eval b)) : Raises IsRaised ((binary op l r).eval b) := by
  unfold eval
  refine hl.bind ?_
  intro v
  cases op
  case and =>
    refine (raises_asBool l v).bind ?_
    intro t
    cases t with
    | true => exact raises_rightSide hr
    | false => exact raises_ok _ _
  case or =>
    refine (raises_asBool l v).bind ?_
    intro t
    cases t with
    | true => exact raises_ok _ _
    | false => exact raises_rightSide hr
  case eq | neq =>
    refine raises_operands raises_asScalar hr ?_
    intro x y
    exact raises_ok _ _
  case gt | gte | lt | lte =>
    refine raises_operands raises_asScalar hr ?_
    intro x y
    split
    · exact raises_ok _ _
    · exact raises_error trivial
  case add | sub | mul | div | mod =>
    refine raises_operands raises_asNumber hr ?_
    intro x y
    exact (raises_arithmetic _ x y).map _

mutual

/-- Every error of an expression is one that an evaluation can end with. The induction follows the
expression: an error is that of an operand or of the operation itself. -/
theorem raises_eval : ∀ e : Expr, Raises IsRaised (e.eval b)
  | const v => by
      unfold eval
      exact raises_ok _ _
  | var n => by
      unfold eval
      split
      · exact raises_ok _ _
      · exact raises_error trivial
  | range lo hi => by
      unfold eval
      refine (raises_eval lo).bind ?_
      intro v
      refine (raises_asRangeBound lo v).bind ?_
      intro low
      refine (raises_eval hi).bind ?_
      intro w
      exact (raises_asRangeBound hi w).map _
  | collection elements => by
      unfold eval
      exact (raises_evalScalars (raises_eval_of_mem elements)).map _
  | app _ args => raises_eval_app (raises_eval_of_mem args)
  | unary _ e => raises_eval_unary (raises_eval e)
  | binary _ l r => raises_eval_binary (raises_eval l) (raises_eval r)
  | ite c t f => by
      unfold eval
      refine (raises_eval c).bind ?_
      intro v
      refine (raises_asBool c v).bind ?_
      intro holds
      cases holds with
      | true => exact raises_eval t
      | false => exact raises_eval f

theorem raises_eval_of_mem : ∀ es : List Expr, ∀ e ∈ es, Raises IsRaised (e.eval b)
  | [] => by simp
  | e :: es => List.forall_mem_cons.mpr ⟨raises_eval e, raises_eval_of_mem es⟩

end

end Expr

/-! ## Sets and conditions -/

namespace Bindings

open EvalError (IsRaised)

variable [Closeness] (b : Bindings) (e : Expr)

theorem raises_evalSet : Raises IsRaised (b.evalSet e) :=
  e.raises_eval.bind fun v => e.raises_asSet v

theorem raises_evalScalar : Raises IsRaised (b.evalScalar e) :=
  e.raises_eval.bind fun v => e.raises_asScalar v

theorem raises_meets (filter : Option Expr) : Raises IsRaised (b.meets filter) := by
  cases filter with
  | none => exact raises_ok _ _
  | some condition =>
    exact condition.raises_eval.bind fun v => condition.raises_asBool v

end Bindings

theorem raises_enumerate [Closeness] (filter : Option Expr) (is : List IndexSet) (b : Bindings) :
    Raises EvalError.IsRaised (enumerate filter is b) := by
  induction is generalizing b with
  | nil =>
    rw [enumerate]
    refine (b.raises_meets filter).bind ?_
    intro holds
    cases holds with
    | true => exact raises_ok _ _
    | false => exact raises_ok _ _
  | cons i is ih =>
    rw [enumerate]
    refine (b.raises_evalSet i.set).bind ?_
    intro vs
    refine Raises.bind (raises_mapM ?_) ?_
    · intro v _
      exact ih (b.push i.name v)
    · intro parts
      exact raises_ok _ _

namespace Declaration

variable [Closeness] (d : Declaration) (params : Params)

theorem raises_evalAxes : Raises EvalError.IsRaised (d.evalAxes params) := by
  refine raises_mapM ?_
  intro e _
  exact (Bindings.ofParams params).raises_evalSet e

theorem raises_enumerateKeys : Raises EvalError.IsRaised (d.enumerateKeys params) :=
  raises_enumerate d.filter d.indices (.ofParams params)

end Declaration

end AlgebraicModel
