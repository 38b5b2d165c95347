import AlgebraicModel.Binary64.Rounding

/-!
# The remainder that is never negative

The remainder of two numbers is exact: it is computed on their integer counts of `2 ^ -1074`, and
its own count is again that of a binary64 number.
-/

set_option autoImplicit false

namespace AlgebraicModel.Binary64

/-- The number that is no number. -/
def notANumber : Float := Float.ofBits 0x7FF8000000000000

/-- What is left of `x` after taking away `y` as often as it fits, with the sign of `x`. -/
def remainder (x y : Float) : Float :=
  if isNaN x || isNaN y || isInfinite x || magnitude y == 0 then notANumber
  else if isInfinite y then x
  else ofMagnitude (isNegative x)
    (nearestMagnitude (unitsOfMagnitude (magnitude x) % unitsOfMagnitude (magnitude y)) unitsPerOne)

/-- The remainder, moved up by the size of the divisor when it is below zero. -/
def euclideanRemainder (x y : Float) : Float :=
  let r := remainder x y
  if r < 0 then r + y.abs else r

example : euclideanRemainder (-7.5) 2.0 = 0.5 := by decide +kernel
example : (remainder (-4.0) 2.0).toBits = (-0.0 : Float).toBits := by decide +kernel

end AlgebraicModel.Binary64
