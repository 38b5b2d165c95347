import AlgebraicModel.Binary64.Basic

/-!
# Binary64 numbers and integers of sixty-four bits

`trunc` rounds a number toward zero, by clearing the bits that stand behind the point, `fract` is
what that takes away, and `toWord` gives the number as an integer of sixty-four bits. On these rest
`integral?`, the integer that a number is equal to, and `compareInt`, which sets an integer against
a number without rounding the integer.

`compareInt` settles by range what is no number and what lies past the integers on either side. Any
other number is rounded toward zero first; only where the integer is equal to the rounded number
does the part behind the point decide.
-/

set_option autoImplicit false

namespace AlgebraicModel.Binary64

-- Powers of numbers are those of core, whichever other instances are in scope.
attribute [local instance (high)] instPowNat

/-- A magnitude without the fraction bits that stand behind the point. -/
def wholeMagnitude (magnitude : Nat) : Nat :=
  if exponentField magnitude < 1023 then 0
  else magnitude - magnitude % 2 ^ (1075 - exponentField magnitude)

/-- The number rounded toward zero. It keeps its sign. -/
def trunc (x : Float) : Float := ofMagnitude (isNegative x) (wholeMagnitude (magnitude x))

/-- The part behind the point, with the sign of the number. -/
def fract (x : Float) : Float := x - trunc x

/-- The number rounded toward zero as an integer, one out of range being moved to the nearer end. -/
def toWord (x : Float) : Int64 :=
  if isNaN x then 0 else Int64.ofIntClamp ((units x).tdiv (unitsPerOne : Int))

/-- `2 ^ 63`, the first number past the integers of sixty-four bits. -/
def wordEnd : Float := 9223372036854775808.0

/-- The order of two numbers by value. What is no number has no place in it. -/
def partialCompare? (x y : Float) : Option Ordering := x.toModel.compare y.toModel

/-- The integer that a number is equal to, if any. -/
def integral? (x : Float) : Option Int64 :=
  if fract x == 0.0 && -wordEnd ≤ x && x < wordEnd then some (toWord x) else none

/-- An integer against a number, by value. What is no number is above every integer. -/
def compareInt (n : Int64) (x : Float) : Ordering :=
  if isNaN x || wordEnd ≤ x then .lt
  else if x < -wordEnd then .gt
  else
    match Ord.compare n.toInt (toWord (trunc x)).toInt with
    | .eq => (partialCompare? (trunc x) x).getD .eq
    | order => order

example : trunc (-2.75) = -2.0 ∧ fract (-2.75) = -0.75 ∧ trunc 0.75 = 0.0 := by decide +kernel

example : integral? (-2.0) = some (-2) ∧ integral? 2.5 = none := by decide +kernel

example : compareInt Int64.maxValue wordEnd = .lt ∧ compareInt Int64.minValue (-wordEnd) = .eq := by
  decide +kernel

end AlgebraicModel.Binary64
