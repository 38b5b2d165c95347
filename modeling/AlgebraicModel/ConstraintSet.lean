import AlgebraicModel.Coefficient

/-!
# Sets of constraints

The set in which a constraint holds its function: a bound, an interval or an integrality condition
for a scalar function, or a cone for a vector. `ScalarSet.shift` moves a set along the line, so that
an additive constant of the function can be taken over into the set. `VectorSet.dimension` is
computed on words of sixty-four bits, so it is the length of the vectors of a triangle only as long
as the product of the side and its successor is a word (`VectorSet.dimension_psdTriangle`).
-/

set_option autoImplicit false

namespace AlgebraicModel

-- Powers of numbers are those of core, whichever other instances are in scope.
attribute [local instance (high)] instPowNat

/-- A set of scalars. -/
inductive ScalarSet (α : Type) where
  | lessThan (upper : α)
  | greaterThan (lower : α)
  | equalTo (value : α)
  | interval (lower upper : α)
  | integer
  | zeroOne
deriving DecidableEq

/-- A set of vectors. -/
inductive VectorSet where
  | nonnegatives (n : Nat)
  | nonpositives (n : Nat)
  | zeros (n : Nat)
  | secondOrderCone (n : Nat)
  /-- The upper triangles, column by column, of the positive semidefinite matrices of a side. -/
  | psdTriangle (side : Nat)
deriving DecidableEq, Repr

/-- The set of a constraint. -/
inductive ConstraintSet (α : Type) where
  | scalar (s : ScalarSet α)
  | vector (s : VectorSet)
deriving DecidableEq

/-- The coarse shape of a set. -/
inductive SetCategory where
  /-- A bound on one side, or an equation. -/
  | bound
  | interval
  | integrality
  | vector
deriving DecidableEq, Repr

namespace SetCategory

/-- Every category. -/
def all : List SetCategory := [bound, interval, integrality, vector]

/-- The category as it is shown. -/
def text : SetCategory → String
  | bound => "Bound"
  | interval => "Interval"
  | integrality => "Integrality"
  | vector => "Vector"

end SetCategory

namespace ScalarSet

variable {α : Type}

/-- The set moved down by `c`: it holds `y` exactly when `s` holds `y + c`. Integrality sets
stay. -/
def shift [Sub α] (s : ScalarSet α) (c : α) : ScalarSet α :=
  match s with
  | lessThan upper => lessThan (upper - c)
  | greaterThan lower => greaterThan (lower - c)
  | equalTo value => equalTo (value - c)
  | interval lower upper => interval (lower - c) (upper - c)
  | integer => integer
  | zeroOne => zeroOne

/-- Whether the set is an integrality condition. -/
def isIntegrality : ScalarSet α → Bool
  | integer | zeroOne => true
  | _ => false

/-- The set as it is shown. -/
def text [Coefficient α] : ScalarSet α → String
  | lessThan upper => "LessThan(" ++ Coefficient.text upper ++ ")"
  | greaterThan lower => "GreaterThan(" ++ Coefficient.text lower ++ ")"
  | equalTo value => "EqualTo(" ++ Coefficient.text value ++ ")"
  | interval lower upper =>
    "Interval(" ++ Coefficient.text lower ++ ", " ++ Coefficient.text upper ++ ")"
  | integer => "Integer()"
  | zeroOne => "ZeroOne()"

end ScalarSet

namespace VectorSet

/-- The number of components of a member. That of a triangle is computed on words, which wrap. -/
def dimension : VectorSet → Nat
  | nonnegatives n | nonpositives n | zeros n | secondOrderCone n => n
  | psdTriangle side => (UInt64.ofNat side * (UInt64.ofNat side + 1) / 2).toNat

theorem dimension_psdTriangle {side : Nat} (h : side * (side + 1) < 2 ^ (64 : Nat)) :
    (psdTriangle side).dimension = side * (side + 1) / 2 := by
  have hside : side + 1 < 2 ^ (64 : Nat) := by
    cases side with
    | zero => decide
    | succ n => exact Nat.lt_of_le_of_lt (Nat.le_mul_of_pos_left _ n.succ_pos) h
  have hlt : side < UInt64.size := Nat.lt_of_succ_lt hside
  have hword : (UInt64.ofNat side).toNat = side := UInt64.toNat_ofNat_of_lt' hlt
  rw [dimension, UInt64.toNat_div, UInt64.toNat_mul, UInt64.toNat_add, hword]
  change side * ((side + 1) % 2 ^ 64) % 2 ^ 64 / 2 = _
  rw [Nat.mod_eq_of_lt hside, Nat.mod_eq_of_lt h]

example : (psdTriangle 3).dimension = 6 := by decide
example : (psdTriangle (2 ^ 64 - 1)).dimension = 0 := by decide

/-- The set as it is shown. -/
def text : VectorSet → String
  | nonnegatives n => "Nonnegatives(" ++ toString n ++ ")"
  | nonpositives n => "Nonpositives(" ++ toString n ++ ")"
  | zeros n => "Zeros(" ++ toString n ++ ")"
  | secondOrderCone n => "SecondOrderCone(" ++ toString n ++ ")"
  | psdTriangle side => "PositiveSemidefiniteConeTriangle(" ++ toString side ++ ")"

end VectorSet

namespace ConstraintSet

variable {α : Type}

/-- The category of a set. -/
def category : ConstraintSet α → SetCategory
  | scalar (.lessThan _) | scalar (.greaterThan _) | scalar (.equalTo _) => .bound
  | scalar (.interval _ _) => .interval
  | scalar .integer | scalar .zeroOne => .integrality
  | vector _ => .vector

/-- Whether the set is one of scalars. -/
def isScalar : ConstraintSet α → Bool
  | scalar _ => true
  | vector _ => false

/-- The set as it is shown. -/
def text [Coefficient α] : ConstraintSet α → String
  | scalar s => s.text
  | vector s => s.text

end ConstraintSet

end AlgebraicModel
