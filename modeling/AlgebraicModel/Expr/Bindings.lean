import AlgebraicModel.Diagnostic
import AlgebraicModel.Expr.Printer

/-!
# Values, parameters and bindings

An index expression denotes a scalar, a truth value or a set. It is evaluated under bindings: the
indices of the enclosing loops, innermost first, and below them the parameters of the caller.
`EvalError` lists the ways in which an evaluation or a look-up can fail, with their wording.
-/

set_option autoImplicit false

namespace AlgebraicModel

/-- What an index expression denotes. -/
inductive Value where
  /-- A single index value. -/
  | scalar (v : IndexValue)
  /-- A truth value. -/
  | bool (b : Bool)
  /-- A set of index values, in the order in which it is walked. -/
  | set (elements : List IndexValue)
deriving DecidableEq

/-- Named values that the caller supplies, the latest first. -/
structure Params where
  entries : List (Name × Value)

namespace Params

/-- No parameters. -/
def empty : Params := ⟨[]⟩

/-- Gives a parameter a value, in place of an earlier one. -/
def insert (p : Params) (n : Name) (v : Value) : Params := ⟨(n, v) :: p.entries⟩

/-- The value of a parameter. -/
def get? (p : Params) (n : Name) : Option Value := p.entries.lookup n

@[simp] theorem get?_insert (p : Params) (m n : Name) (v : Value) :
    (p.insert m v).get? n = if n = m then some v else p.get? n := by
  by_cases h : n = m
  · simp [get?, insert, h]
  · have hne : (n == m) = false := by simpa using h
    simp [get?, insert, List.lookup_cons, hne, h]

end Params

/-- The names in scope: the indices of the enclosing loops, innermost first, and the parameters. -/
structure Bindings where
  params : Params
  indices : List (Name × IndexValue)

/-- Why an evaluation or a look-up fails. -/
inductive EvalError where
  /-- No index has the name. -/
  | noIndex (name : Name)
  /-- The index is asked for as an integer. -/
  | indexNotInteger (name : Name) (v : IndexValue)
  /-- The index is asked for as a number. -/
  | indexNotNumber (name : Name) (v : IndexValue)
  /-- Neither an index nor a parameter has the name. -/
  | unknownName (name : Name)
  | notSet (e : Expr)
  | notBoolean (e : Expr)
  | notScalar (e : Expr)
  | notNumber (e : Expr)
  /-- An end of a range is not an integer. -/
  | rangeBound (e : Expr) (v : IndexValue)
  /-- A text is compared with a number. -/
  | incomparable (l r : IndexValue)
  | negationOverflow (n : Int64)
  | absOverflow (n : Int64)
  | overflow (op : BinaryOp) (a b : Int64)
  | divisionByZero (dividend : IndexValue)
  /-- A function that needs an argument has none. -/
  | noArgument (f : Name)
  /-- A function of one argument has another number of them. -/
  | notOneArgument (f : Name)
  | ofBoolean (f : Name)
  | ofNonNumeric (f : Name) (v : IndexValue)
  | ofEmptySet (f : Name)
  | unknownFunction (f : Name)

namespace EvalError

/-- The code of a failure. -/
def code : EvalError → ErrorCode
  | noIndex _ | unknownName _ => .unknownIdentifier
  | indexNotInteger _ _ | indexNotNumber _ _ => .expectedScalar
  | notSet _ => .expectedSet
  | notBoolean _ => .expectedBool
  | notScalar _ | notNumber _ | rangeBound _ _ | incomparable _ _ => .expectedScalar
  | negationOverflow _ | absOverflow _ | overflow _ _ _ => .integerOverflow
  | divisionByZero _ => .divisionByZero
  | noArgument _ | notOneArgument _ | ofBoolean _ | ofNonNumeric _ _ | ofEmptySet _ =>
    .badBuiltinArgs
  | unknownFunction _ => .unknownBuiltin

/-- An operation that overflows, as a reader is told. -/
def overflowText (operation : String) : String :=
  "`" ++ operation ++ "` overflows a 64-bit integer"

/-- What a reader is told. -/
def message : EvalError → String
  | noIndex n => "no index variable named `" ++ n.text ++ "`"
  | indexNotInteger n v => "index `" ++ n.text ++ "` is " ++ v.text ++ ", not an integer"
  | indexNotNumber n v => "index `" ++ n.text ++ "` is " ++ v.text ++ ", not a number"
  | unknownName n => "unknown name `" ++ n.text ++ "`"
  | notSet e => "`" ++ e.print ++ "` is not an iterable set"
  | notBoolean e => "`" ++ e.print ++ "` is not a boolean condition"
  | notScalar e => "`" ++ e.print ++ "` is not a scalar"
  | notNumber e => "`" ++ e.print ++ "` is not a number"
  | rangeBound e v => "range bound `" ++ e.print ++ "` is " ++ v.text ++ ", not an integer"
  | incomparable l r => "cannot compare " ++ l.text ++ " with " ++ r.text
  | negationOverflow n => overflowText ("-(" ++ toString n.toInt ++ ")")
  | absOverflow n => overflowText ("abs(" ++ toString n.toInt ++ ")")
  | overflow op a b =>
    overflowText (toString a.toInt ++ " " ++ op.symbol ++ " " ++ toString b.toInt)
  | divisionByZero v => v.text ++ " divided by zero"
  | noArgument f => f.text ++ "() needs at least one argument"
  | notOneArgument f => f.text ++ "() takes exactly one argument"
  | ofBoolean f => f.text ++ "() of a boolean"
  | ofNonNumeric f v => f.text ++ "() of non-numeric " ++ v.text
  | ofEmptySet f => f.text ++ "() of an empty set"
  | unknownFunction f => "unknown function `" ++ f.text ++ "`"

instance : Cause EvalError := ⟨fun _ => .specification, code, message⟩

end EvalError

namespace Bindings

/-- Parameters only, with no enclosing loop. -/
def ofParams (p : Params) : Bindings := ⟨p, []⟩

/-- The bindings inside one more loop. -/
def push (b : Bindings) (n : Name) (v : IndexValue) : Bindings :=
  { b with indices := (n, v) :: b.indices }

/-- The bindings inside one loop for each index, outermost first. -/
def pushAll (b : Bindings) (names : List Name) (k : Key) : Bindings :=
  (names.zip k).foldl (fun b (n, v) => b.push n v) b

/-- The value of an index, the innermost of that name. -/
def index? (b : Bindings) (n : Name) : Option IndexValue := b.indices.lookup n

/-- What a name denotes: an index before a parameter. -/
def resolve? (b : Bindings) (n : Name) : Option Value :=
  match b.index? n with
  | some v => some (.scalar v)
  | none => b.params.get? n

/-- The value of an index that has to be there. -/
def index (b : Bindings) (n : Name) : Except EvalError IndexValue :=
  match b.index? n with
  | some v => .ok v
  | none => .error (.noIndex n)

/-- The value of an index as an integer. -/
def integer (b : Bindings) (n : Name) : Except EvalError Int64 := do
  let v ← b.index n
  match v.int? with
  | some i => return i
  | none => throw (.indexNotInteger n v)

/-- The value of an index as a number. -/
def number (b : Bindings) (n : Name) : Except EvalError Float := do
  let v ← b.index n
  match v.float? with
  | some x => return x
  | none => throw (.indexNotNumber n v)

/-- The values of the indices, outermost first. -/
def key (b : Bindings) : Key := (b.indices.map Prod.snd).reverse

@[simp] theorem key_ofParams (p : Params) : (ofParams p).key = [] := rfl

@[simp] theorem key_push (b : Bindings) (n : Name) (v : IndexValue) :
    (b.push n v).key = b.key ++ [v] := by
  simp [key, push]

end Bindings

end AlgebraicModel
