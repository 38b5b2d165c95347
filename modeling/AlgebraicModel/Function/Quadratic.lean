import AlgebraicModel.Function.Affine

/-!
# Quadratic functions

A quadratic function is an affine function plus a sum of coefficients times products of two
variables. A pair of variables is stored with the smaller one first and occurs in one term only.
-/

set_option autoImplicit false

namespace AlgebraicModel

/-- The function `affine + sum (coefficient * a * b)`. -/
structure Quadratic (α : Type) where
  affine : Affine α
  terms : List ((VarRef × VarRef) × α)
deriving DecidableEq

namespace Quadratic

variable {α : Type}

/-- A pair of variables with the smaller one first. -/
def orderedPair (a b : VarRef) : VarRef × VarRef := if a ≤ b then (a, b) else (b, a)

/-- Adds a coefficient to the term of its pair, or a new term at the end. -/
def addPairTo [Add α] (p : VarRef × VarRef) (c : α) :
    List ((VarRef × VarRef) × α) → List ((VarRef × VarRef) × α)
  | [] => [(p, c)]
  | (q, d) :: terms => if q = p then (q, d + c) :: terms else (q, d) :: addPairTo p c terms

/-- An affine function. -/
def ofAffine (f : Affine α) : Quadratic α := ⟨f, []⟩

/-- The function that is zero everywhere. -/
def zero [Zero α] : Quadratic α := ofAffine .zero

/-- Adds a term for the product of two variables. -/
def addTerm [Add α] (f : Quadratic α) (a b : VarRef) (c : α) : Quadratic α :=
  { f with terms := addPairTo (orderedPair a b) c f.terms }

/-- The additive constant. -/
def constant (f : Quadratic α) : α := f.affine.constant

/-- The sum: the terms of `g` are added to those of `f` one by one. -/
def add [Add α] (f g : Quadratic α) : Quadratic α :=
  ⟨f.affine.add g.affine,
   g.terms.foldl (fun terms ((a, b), c) => addPairTo (orderedPair a b) c terms) f.terms⟩

/-- Every coefficient and the constant times `k`. -/
def scale [Mul α] (f : Quadratic α) (k : α) : Quadratic α :=
  ⟨f.affine.scale k, f.terms.map fun (p, c) => (p, c * k)⟩

/-- The sum with the operand times minus one. -/
def sub [One α] [Neg α] [Add α] [Mul α] (f g : Quadratic α) : Quadratic α :=
  f.add (g.scale (-1))

/-- The variables: those of the affine part, then both of each product. -/
def vars (f : Quadratic α) : List VarRef :=
  f.affine.vars ++ f.terms.flatMap fun ((a, b), _) => [a, b]

end Quadratic

end AlgebraicModel
