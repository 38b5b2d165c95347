import AlgebraicModel.Coefficient
import AlgebraicModel.Reference

/-!
# Affine functions

An affine function is a sum of coefficients times variables, plus a constant. A variable occurs in
one term only: adding a term to a variable that is there adds to its coefficient. Subtraction is the
addition of the operand times minus one.
-/

set_option autoImplicit false

namespace AlgebraicModel

/-- The function `sum (coefficient * variable) + constant`. -/
structure Affine (α : Type) where
  terms : List (VarRef × α)
  constant : α
deriving DecidableEq

namespace Affine

variable {α : Type}

/-- Adds a coefficient to the term of its variable, or a new term at the end. -/
def addTermTo [Add α] (v : VarRef) (c : α) : List (VarRef × α) → List (VarRef × α)
  | [] => [(v, c)]
  | (w, d) :: terms => if w = v then (w, d + c) :: terms else (w, d) :: addTermTo v c terms

/-- A constant. -/
def ofConstant (c : α) : Affine α := ⟨[], c⟩

/-- The function that is zero everywhere. -/
def zero [Zero α] : Affine α := ofConstant 0

/-- Adds a term. -/
def addTerm [Add α] (f : Affine α) (v : VarRef) (c : α) : Affine α :=
  { f with terms := addTermTo v c f.terms }

/-- A single variable. -/
def ofVar [Zero α] [One α] [Add α] (v : VarRef) : Affine α := zero.addTerm v 1

/-- Adds to the constant. -/
def plus [Add α] (f : Affine α) (c : α) : Affine α := { f with constant := f.constant + c }

/-- Puts another constant in place. -/
def setConstant (f : Affine α) (c : α) : Affine α := { f with constant := c }

/-- The sum: the terms of `g` are added to those of `f` one by one. -/
def add [Add α] (f g : Affine α) : Affine α :=
  ⟨g.terms.foldl (fun terms (v, c) => addTermTo v c terms) f.terms, f.constant + g.constant⟩

/-- Every coefficient and the constant times `k`. -/
def scale [Mul α] (f : Affine α) (k : α) : Affine α :=
  ⟨f.terms.map fun (v, c) => (v, c * k), f.constant * k⟩

/-- The function times minus one. -/
def neg [One α] [Neg α] [Mul α] (f : Affine α) : Affine α := f.scale (-1)

/-- The sum with the negation. -/
def sub [One α] [Neg α] [Add α] [Mul α] (f g : Affine α) : Affine α := f.add g.neg

/-- The variables, in the order of their terms. -/
def vars (f : Affine α) : List VarRef := f.terms.map Prod.fst

@[simp] theorem vars_setConstant (f : Affine α) (c : α) : (f.setConstant c).vars = f.vars := rfl

@[simp] theorem constant_setConstant (f : Affine α) (c : α) : (f.setConstant c).constant = c := rfl

@[simp] theorem vars_scale [Mul α] (f : Affine α) (k : α) : (f.scale k).vars = f.vars := by
  simp [vars, scale]

end Affine

end AlgebraicModel
