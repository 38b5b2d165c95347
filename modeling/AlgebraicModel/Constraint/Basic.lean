import AlgebraicModel.ConstraintSet
import AlgebraicModel.Function.Basic

/-!
# Constraints

A constraint holds a function in a set. Its function has one of five shapes that a solver takes. A
broadcast relation gives a group of constraints, one for each element.
-/

set_option autoImplicit false

namespace AlgebraicModel

/-- The function of a constraint. -/
inductive ConstraintFunction (α : Type) where
  | singleVariable (v : VarRef)
  | vectorOfVariables (vs : List VarRef)
  | affine (f : Affine α)
  | vectorAffine (fs : List (Affine α))
  | quadratic (f : Quadratic α)
deriving DecidableEq

/-- The variables that the function of a constraint refers to. -/
def ConstraintFunction.vars {α : Type} : ConstraintFunction α → List VarRef
  | singleVariable v => [v]
  | vectorOfVariables vs => vs
  | affine f => f.vars
  | vectorAffine fs => fs.flatMap Affine.vars
  | quadratic f => f.vars

/-- A function held in a set. -/
structure Constraint (α : Type) where
  func : ConstraintFunction α
  set : ConstraintSet α
deriving DecidableEq

/-- What a relation in canonical form is built into. -/
inductive ConstraintGroup (α : Type) where
  | single (c : Constraint α)
  /-- One constraint for each element of a broadcast. -/
  | broadcast (cs : List (Constraint α))

/-- The constraints of a group, in order. -/
def ConstraintGroup.toList {α : Type} : ConstraintGroup α → List (Constraint α)
  | single c => [c]
  | broadcast cs => cs

end AlgebraicModel
