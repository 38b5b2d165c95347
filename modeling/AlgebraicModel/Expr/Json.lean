import AlgebraicModel.Expr.Basic
import AlgebraicModel.Json.Format

/-!
# Index expressions in JSON

An expression is stored as an object whose only field names its form and holds its parts: a single
part as it is, several in an array. A constant is a number or a string; a number that is written
without a point and fits in sixty-four bits is an integer, every other number is a binary64 number.
How a binary64 number is written, and what number is made of what is written, is up to the format.

Stored expressions are nested no deeper than a reader allows. `Expr.ofJson?` is told how many levels
of arrays and objects it may still enter.
-/

set_option autoImplicit false

namespace AlgebraicModel

namespace IndexValue

variable [JsonFormat]

/-- A binary64 number as it is stored. What is not finite has no form in JSON. -/
def floatJson (x : Float) : Json :=
  if Binary64.isFinite x then .number (JsonFormat.ofFloat x) else .null

/-- The value as it is stored. -/
def toJson : IndexValue → Json
  | int n => .int n.toInt
  | float x => floatJson x
  | str s => .text s

/-- The stored value. -/
def ofJson? : Json → Option IndexValue
  | .number (.whole n) =>
    match Word.ofInt? n with
    | some w => some (int w)
    | none => (JsonFormat.toFloat? (.whole n)).map float
  | .number n => (JsonFormat.toFloat? n).map float
  | .string s => s.map str
  | _ => none

end IndexValue

namespace Name

/-- The name as it is stored. -/
def toJson (n : Name) : Json := .text n.text

/-- The stored name, with the blanks around it. -/
def ofJson? (j : Json) : Option Name := j.text?.map Name.mk

end Name

/-- The name of a choice without data. It may be the tag of an object that holds nothing, which is
one more level. -/
def Json.choice? (levels : Nat) : Json → Option String
  | .string s => s
  | .object [(some tag, .null)] => if levels = 0 then none else some tag
  | _ => none

namespace UnaryOp

/-- The name under which the operator is stored. -/
def name : UnaryOp → String
  | positive => "Positive"
  | negative => "Negative"
  | not => "Not"

/-- The operator of a name. -/
def ofName? (s : String) : Option UnaryOp := all.find? fun op => op.name == s

@[simp] theorem ofName?_name (op : UnaryOp) : ofName? op.name = some op := by
  cases op <;> decide

end UnaryOp

namespace BinaryOp

/-- The name under which the operator is stored. -/
def name : BinaryOp → String
  | add => "Add"
  | sub => "Sub"
  | mul => "Mul"
  | div => "Div"
  | mod => "Mod"
  | gt => "Gt"
  | lt => "Lt"
  | gte => "Gte"
  | lte => "Lte"
  | eq => "Eq"
  | neq => "Neq"
  | and => "And"
  | or => "Or"

/-- The operator of a name. -/
def ofName? (s : String) : Option BinaryOp := all.find? fun op => op.name == s

@[simp] theorem ofName?_name (op : BinaryOp) : ofName? op.name = some op := by
  cases op <;> decide

end BinaryOp

namespace Expr

/-- The forms of expressions. -/
inductive Form where
  | const | var | range | collection | app | unary | binary | ite
deriving DecidableEq, Repr

namespace Form

/-- Every form. -/
def all : List Form := [const, var, range, collection, app, unary, binary, ite]

/-- The name under which the expressions of a form are stored. -/
def name : Form → String
  | const => "Const"
  | var => "Var"
  | range => "Range"
  | collection => "Collection"
  | app => "App"
  | unary => "Op1"
  | binary => "Op2"
  | ite => "If"

/-- The form of a name. -/
def ofName? (s : String) : Option Form := all.find? fun form => form.name == s

@[simp] theorem ofName?_name (form : Form) : ofName? form.name = some form := by
  cases form <;> decide

end Form

variable [JsonFormat]

mutual

/-- The expression as it is stored. -/
def toJson : Expr → Json
  | const v => .tagged Form.const.name v.toJson
  | var n => .tagged Form.var.name n.toJson
  | range lo hi => .tagged Form.range.name (.array [lo.toJson, hi.toJson])
  | collection elements => .tagged Form.collection.name (.array (toJsons elements))
  | app f args => .tagged Form.app.name (.array [f.toJson, .array (toJsons args)])
  | unary op e => .tagged Form.unary.name (.array [.text op.name, e.toJson])
  | binary op l r => .tagged Form.binary.name (.array [.text op.name, l.toJson, r.toJson])
  | ite c t f => .tagged Form.ite.name (.array [c.toJson, t.toJson, f.toJson])

/-- A list of expressions as they are stored. -/
def toJsons : List Expr → List Json
  | [] => []
  | e :: es => e.toJson :: toJsons es

end

mutual

/-- The stored expression, if it enters no more than the given number of levels. The object is one
level, and the array of its parts another. -/
def ofJson? : Nat → Json → Option Expr
  | 0, _ => none
  | n + 1, j => do
    let (tag, payload) ← j.tagged?
    ofPayload? n (← Form.ofName? tag) payload

/-- The expression of a form with the stored parts. -/
def ofPayload? : Nat → Form → Json → Option Expr
  | _, .const, v => return const (← IndexValue.ofJson? v)
  | _, .var, n => return var (← Name.ofJson? n)
  | n + 1, .range, .array [lo, hi] => return range (← ofJson? n lo) (← ofJson? n hi)
  | n + 1, .collection, .array elements => return collection (← elements.mapM (ofJson? n))
  | n + 2, .app, .array [f, .array args] =>
    return app (← Name.ofJson? f) (← args.mapM (ofJson? n))
  | n + 1, .unary, .array [op, e] =>
    return unary (← UnaryOp.ofName? (← op.choice? n)) (← ofJson? n e)
  | n + 1, .binary, .array [op, l, r] =>
    return binary (← BinaryOp.ofName? (← op.choice? n)) (← ofJson? n l) (← ofJson? n r)
  | n + 1, .ite, .array [c, t, f] =>
    return ite (← ofJson? n c) (← ofJson? n t) (← ofJson? n f)
  | _, _, _ => none

end

end Expr

end AlgebraicModel
