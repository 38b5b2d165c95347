import AlgebraicModel.IndexValue.Basic
import AlgebraicModel.Name

/-!
# Index expressions

Index sets (`1..N`, a literal collection, `i..N`) and filter conditions (`i != j`) are small
expressions over integers, numbers and texts. This module holds the syntax; printing, free names and
evaluation are in the other modules of this folder.
-/

set_option autoImplicit false

namespace AlgebraicModel

/-- The operators with one operand. -/
inductive UnaryOp where
  | positive | negative | not
deriving DecidableEq, Repr

/-- The operators with two operands. -/
inductive BinaryOp where
  | add | sub | mul | div | mod | gt | lt | gte | lte | eq | neq | and | or
deriving DecidableEq, Repr

namespace UnaryOp

/-- Every operator, in the order in which they are listed for a reader. -/
def all : List UnaryOp := [positive, negative, not]

/-- The operator as it is printed. -/
def symbol : UnaryOp → String
  | positive => "+"
  | negative => "-"
  | not => "!"

end UnaryOp

namespace BinaryOp

/-- Every operator, in the order in which they are listed for a reader. -/
def all : List BinaryOp := [add, sub, mul, div, mod, gt, lt, gte, lte, eq, neq, and, or]

/-- How tightly the operator binds. -/
def precedence : BinaryOp → Nat
  | mul | div | mod => 5
  | add | sub => 4
  | gt | lt | gte | lte => 3
  | eq | neq => 2
  | and | or => 1

/-- The operator as it is printed. -/
def symbol : BinaryOp → String
  | add => "+"
  | sub => "-"
  | mul => "*"
  | div => "/"
  | mod => "%"
  | gt => ">"
  | lt => "<"
  | gte => ">="
  | lte => "<="
  | eq => "=="
  | neq => "!="
  | and => "&&"
  | or => "||"

end BinaryOp

/-- An index expression. -/
inductive Expr where
  /-- A constant. -/
  | const (v : IndexValue)
  /-- A name, of an index or of a parameter. -/
  | var (n : Name)
  /-- The integers from `lo` to `hi`, both included. -/
  | range (lo hi : Expr)
  /-- A set given by its elements, in the order written. -/
  | collection (elements : List Expr)
  /-- A built-in function applied to arguments. -/
  | app (f : Name) (args : List Expr)
  /-- An operator with one operand. -/
  | unary (op : UnaryOp) (e : Expr)
  /-- An operator with two operands. -/
  | binary (op : BinaryOp) (l r : Expr)
  /-- The value of `t` if the condition `c` holds, and of `f` otherwise. -/
  | ite (c t f : Expr)

namespace Expr

/-- The upper end `N` of an expression that is written `1..N`. -/
def oneBasedUpper? : Expr → Option Expr
  | range (const (.int 1)) hi => some hi
  | _ => none

/-- The range `1..hi`. -/
def oneTo (hi : Expr) : Expr := range (const (.int 1)) hi

@[simp] theorem oneBasedUpper?_oneTo (hi : Expr) : (oneTo hi).oneBasedUpper? = some hi := rfl

end Expr

end AlgebraicModel
