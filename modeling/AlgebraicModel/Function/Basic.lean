import AlgebraicModel.Function.Quadratic

/-!
# Functions

What an element of a constraint compares: a constant, a variable, an affine or a quadratic function,
or an array of functions. The category of a function is its coarse shape, by which a builder for its
constraint is chosen.
-/

set_option autoImplicit false

namespace AlgebraicModel

/-- A function of decision variables. -/
inductive Function (α : Type) where
  | constant (c : α)
  | var (v : VarRef)
  | affine (f : Affine α)
  | quadratic (f : Quadratic α)
  | array (elements : List (Function α))

/-- The coarse shape of a function. -/
inductive FunctionCategory where
  | constant | var | affine | quadratic
  /-- An array of variables. -/
  | varVector
  /-- An array of constants, variables and affine functions. -/
  | affineVector
  /-- Any other array. -/
  | array
deriving DecidableEq, Repr

namespace FunctionCategory

/-- Every category. -/
def all : List FunctionCategory :=
  [constant, var, affine, quadratic, varVector, affineVector, array]

/-- The category as it is shown. -/
def text : FunctionCategory → String
  | constant => "Constant"
  | var => "Variable"
  | affine => "Affine"
  | quadratic => "Quadratic"
  | varVector => "VariableVector"
  | affineVector => "AffineVector"
  | array => "Array"

end FunctionCategory

namespace Function

variable {α : Type}

/-- Whether the function is an array. -/
def isArray : Function α → Bool
  | array _ => true
  | _ => false

/-- Whether the function is a bare variable. -/
def isVar : Function α → Bool
  | var _ => true
  | _ => false

/-- Whether the function is a constant, a variable or affine. -/
def isLinear : Function α → Bool
  | constant _ | var _ | affine _ => true
  | quadratic _ | array _ => false

/-- The category of a function. An empty array counts as an array of variables. -/
def category : Function α → FunctionCategory
  | constant _ => .constant
  | var _ => .var
  | affine _ => .affine
  | quadratic _ => .quadratic
  | array elements =>
    if elements.all isVar then .varVector
    else if elements.all isLinear then .affineVector
    else .array

/-- The additive constant, zero for variables and arrays. -/
def additive [Zero α] : Function α → α
  | constant c => c
  | affine f => f.constant
  | quadratic f => f.constant
  | var _ | array _ => 0

/-- The function as an affine one, unless it is quadratic or an array. -/
def toAffine? [Zero α] [One α] [Add α] : Function α → Option (Affine α)
  | constant c => some (.ofConstant c)
  | var v => some (.ofVar v)
  | affine f => some f
  | quadratic _ | array _ => none

/-- The function as a quadratic one, unless it is an array. -/
def toQuadratic? [Zero α] [One α] [Add α] : Function α → Option (Quadratic α)
  | quadratic f => some f
  | f => f.toAffine?.map .ofAffine

/-- The difference of two functions in the narrowest shape that holds it, unless one is an array. -/
def minus? [Zero α] [One α] [Neg α] [Add α] [Sub α] [Mul α] :
    Function α → Function α → Option (Function α)
  | array _, _ | _, array _ => none
  | constant a, constant b => some (constant (a - b))
  | f@(quadratic _), g | f, g@(quadratic _) => do
    return quadratic ((← f.toQuadratic?).sub (← g.toQuadratic?))
  | f, g => do return affine ((← f.toAffine?).sub (← g.toAffine?))

mutual

/-- The variables that the function refers to, in the order of their terms. -/
def vars : Function α → List VarRef
  | constant _ => []
  | var v => [v]
  | affine f => f.vars
  | quadratic f => f.vars
  | array elements => allVars elements

/-- The variables that the functions of a list refer to. -/
def allVars : List (Function α) → List VarRef
  | [] => []
  | f :: fs => f.vars ++ allVars fs

end

end Function

end AlgebraicModel
