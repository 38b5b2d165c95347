import AlgebraicModel.Binary64.Remainder
import AlgebraicModel.Expr.Bindings

/-!
# Evaluating index expressions

`Expr.eval` gives the value of an expression under bindings. Operands are evaluated from left to
right, and an operand that cannot matter is not evaluated: the right side of `&&` and `||` after a
deciding left side, and the other branch of a conditional.

Arithmetic on two integers is exact or an error. A quotient of integers that is not whole is a
number. Equality of numbers is closeness, while equality of integers and of texts is exact.
-/

set_option autoImplicit false

namespace AlgebraicModel

/-- The built-in functions. -/
inductive Builtin where
  | len | abs | min | max
deriving DecidableEq, Repr

/-- The built-in function of a name. -/
def Builtin.ofName? (f : Name) : Option Builtin :=
  if f.text = "len" then some len
  else if f.text = "abs" then some abs
  else if f.text = "min" then some min
  else if f.text = "max" then some max
  else none

variable [Closeness]

namespace IndexValue

/-- Equality as a condition tests it. -/
def equal : IndexValue → IndexValue → Bool
  | int a, int b => a == b
  | str s, str t => s == t
  | l, r =>
    match l.float?, r.float? with
    | some x, some y => Closeness.isClose x y
    | _, _ => false

/-- The order as a condition tests it, if the values can be compared. -/
def order? : IndexValue → IndexValue → Option Ordering
  | str s, str t => some (Ord.compare s t)
  | l, r =>
    match l.float?, r.float? with
    | some x, some y => some (Binary64.totalCompare x y)
    | _, _ => none

end IndexValue

namespace Expr

/-- An integer result, or the failure when it is out of range. -/
def wholeResult (failure : EvalError) (n : Int) : Except EvalError IndexValue :=
  match Word.ofInt? n with
  | some w => .ok (.int w)
  | none => .error failure

/-- Arithmetic on two integers. The remainder lies between zero and the divisor, and is refused
where the quotient is out of range. -/
def wholeArithmetic (op : BinaryOp) (a b : Int64) : Except EvalError IndexValue :=
  let overflow := EvalError.overflow op a b
  match op with
  | .add => wholeResult overflow (a.toInt + b.toInt)
  | .sub => wholeResult overflow (a.toInt - b.toInt)
  | .mul => wholeResult overflow (a.toInt * b.toInt)
  | .div =>
    if b.toInt = 0 then .error (.divisionByZero (.int a))
    else if a.toInt.tmod b.toInt = 0 then wholeResult overflow (a.toInt.tdiv b.toInt)
    else .ok (.float (Binary64.ofInt a.toInt / Binary64.ofInt b.toInt))
  | _ =>
    if b.toInt = 0 then .error (.divisionByZero (.int a))
    else if (Word.ofInt? (a.toInt.tdiv b.toInt)).isNone then .error overflow
    else wholeResult overflow (a.toInt % b.toInt)

/-- Arithmetic on two binary64 numbers. -/
def floatArithmetic (op : BinaryOp) (x y : Float) : Except EvalError IndexValue :=
  match op with
  | .add => .ok (.float (x + y))
  | .sub => .ok (.float (x - y))
  | .mul => .ok (.float (x * y))
  | .div => if y == 0 then .error (.divisionByZero (.float x)) else .ok (.float (x / y))
  | _ =>
    if y == 0 then .error (.divisionByZero (.float x))
    else .ok (.float (Binary64.euclideanRemainder x y))

/-- Arithmetic on two numbers: exact on integers, rounded otherwise. -/
def arithmetic (op : BinaryOp) (l r : IndexValue) : Except EvalError IndexValue :=
  match l, r with
  | .int a, .int b => wholeArithmetic op a b
  | _, _ => floatArithmetic op (l.float?.getD 0) (r.float?.getD 0)

/-- The negation of a number. -/
def negation : IndexValue → Except EvalError IndexValue
  | .int n => wholeResult (.negationOverflow n) (-n.toInt)
  | v => .ok (.float (-(v.float?.getD 0)))

/-- The distance of a number from zero. -/
def absolute : IndexValue → Except EvalError IndexValue
  | .int n => wholeResult (.absOverflow n) n.toInt.natAbs
  | v => .ok (.float (v.float?.getD 0).abs)

/-- Whether an order makes a comparison true. -/
def holds (op : BinaryOp) (o : Ordering) : Bool :=
  match op with
  | .gt => o == .gt
  | .gte => o != .lt
  | .lt => o == .lt
  | _ => o != .gt

/-- The candidate that is better than all before it, numbers being compared as binary64. -/
def extremum (f : Name) (better : Float → Float → Bool) :
    Option (Float × IndexValue) → List IndexValue → Except EvalError IndexValue
  | none, [] => .error (.ofEmptySet f)
  | some (_, v), [] => .ok v
  | best, v :: vs =>
    match v.float? with
    | none => .error (.ofNonNumeric f v)
    | some x =>
      match best with
      | none => extremum f better (some (x, v)) vs
      | some (y, w) => extremum f better (if better x y then some (x, v) else some (y, w)) vs

/-- The least or the greatest candidate, the first one of equals. -/
def extremumOf (f : Name) (least : Bool) (candidates : List IndexValue) :
    Except EvalError IndexValue :=
  extremum f (fun x y => if least then x < y else y < x) none candidates

/-- The value of `e`, which has to be a scalar. -/
def asScalar (e : Expr) : Value → Except EvalError IndexValue
  | .scalar v => .ok v
  | _ => .error (.notScalar e)

/-- The value of `e`, which has to be a number. -/
def asNumber (e : Expr) (v : Value) : Except EvalError IndexValue := do
  match ← asScalar e v with
  | .str _ => throw (.notNumber e)
  | n => return n

/-- The value of `e`, which has to be an integer. -/
def asRangeBound (e : Expr) (v : Value) : Except EvalError Int64 := do
  let n ← asScalar e v
  match n.int? with
  | some i => return i
  | none => throw (.rangeBound e n)

/-- The value of `e`, which has to be a truth value. -/
def asBool (e : Expr) : Value → Except EvalError Bool
  | .bool b => .ok b
  | _ => .error (.notBoolean e)

/-- The value of `e`, which has to be a set. -/
def asSet (e : Expr) : Value → Except EvalError (List IndexValue)
  | .set s => .ok s
  | _ => .error (.notSet e)

/-- The candidates that a function finds in its only argument. -/
def asCandidates (f : Name) : Value → Except EvalError (List IndexValue)
  | .set s => .ok s
  | .scalar v => .ok [v]
  | .bool _ => .error (.ofBoolean f)

mutual

/-- The value of an expression under bindings. -/
def eval (b : Bindings) : Expr → Except EvalError Value
  | const v => .ok (.scalar v)
  | var n =>
    match b.resolve? n with
    | some v => .ok v
    | none => .error (.unknownName n)
  | range lo hi => do
    let l ← asRangeBound lo (← eval b lo)
    let h ← asRangeBound hi (← eval b hi)
    return .set ((Word.interval l h).map .int)
  | collection elements => return .set (← evalScalars b elements)
  | app f args =>
    match Builtin.ofName? f, args with
    | none, _ => .error (.unknownFunction f)
    | some .len, [s] => do
      let elements ← asSet s (← eval b s)
      return .scalar (.int (Int64.ofNat elements.length))
    | some .abs, [x] => do return .scalar (← absolute (← asNumber x (← eval b x)))
    | some .len, _ => .error (.notOneArgument f)
    | some .abs, _ => .error (.notOneArgument f)
    | some _, [] => .error (.noArgument f)
    | some g, [x] => do
      return .scalar (← extremumOf f (g == .min) (← asCandidates f (← eval b x)))
    | some g, x :: y :: rest => do
      return .scalar (← extremumOf f (g == .min) (← evalNumbers b (x :: y :: rest)))
  | unary op e => do
    let v ← eval b e
    match op with
    | .not => return .bool (!(← asBool e v))
    | .positive => return .scalar (← asNumber e v)
    | .negative => return .scalar (← negation (← asNumber e v))
  | binary op l r => do
    let v ← eval b l
    match op with
    | .and => if ← asBool l v then return .bool (← asBool r (← eval b r)) else return .bool false
    | .or => if ← asBool l v then return .bool true else return .bool (← asBool r (← eval b r))
    | .eq | .neq =>
      let x ← asScalar l v
      let y ← asScalar r (← eval b r)
      return .bool (x.equal y == (op == .eq))
    | .gt | .gte | .lt | .lte =>
      let x ← asScalar l v
      let y ← asScalar r (← eval b r)
      match x.order? y with
      | some o => return .bool (holds op o)
      | none => throw (.incomparable x y)
    | .add | .sub | .mul | .div | .mod =>
      let x ← asNumber l v
      let y ← asNumber r (← eval b r)
      return .scalar (← arithmetic op x y)
  | ite c t f => do
    if ← asBool c (← eval b c) then eval b t else eval b f

/-- The values of expressions that have to be scalars. -/
def evalScalars (b : Bindings) : List Expr → Except EvalError (List IndexValue)
  | [] => .ok []
  | e :: es => do
    let v ← asScalar e (← eval b e)
    return v :: (← evalScalars b es)

/-- The values of expressions that have to be numbers. -/
def evalNumbers (b : Bindings) : List Expr → Except EvalError (List IndexValue)
  | [] => .ok []
  | e :: es => do
    let v ← asNumber e (← eval b e)
    return v :: (← evalNumbers b es)

end

end Expr

namespace Bindings

/-- The set that an expression denotes. -/
def evalSet (b : Bindings) (e : Expr) : Except EvalError (List IndexValue) := do
  e.asSet (← e.eval b)

/-- The truth value that an expression denotes. -/
def evalBool (b : Bindings) (e : Expr) : Except EvalError Bool := do
  e.asBool (← e.eval b)

/-- The scalar that an expression denotes. -/
def evalScalar (b : Bindings) (e : Expr) : Except EvalError IndexValue := do
  e.asScalar (← e.eval b)

end Bindings

end AlgebraicModel
