/-!
# Binary64 numbers, read off their bits

A binary64 number is a sign bit, eleven exponent bits and fifty-two fraction bits. This module reads
these fields as natural numbers and gives the exact value of a finite number as an integer count of
`2 ^ -1074`, the least positive number of the format. Nothing here rounds.
-/

set_option autoImplicit false

namespace AlgebraicModel.Binary64

-- Powers of numbers are those of core, whichever other instances are in scope.
attribute [local instance (high)] instPowNat

/-- The sign bit. -/
def isNegative (x : Float) : Bool := 2 ^ (63 : Nat) ≤ x.toBits.toNat

/-- The bits below the sign bit. Among numbers of one sign they ascend with the distance to zero. -/
def magnitude (x : Float) : Nat := x.toBits.toNat % 2 ^ (63 : Nat)

/-- The magnitude of the two infinities. -/
def infinityMagnitude : Nat := 2047 * 2 ^ (52 : Nat)

/-- Whether the bits denote no number. -/
def isNaN (x : Float) : Bool := infinityMagnitude < magnitude x

/-- Whether the number is one of the two infinities. -/
def isInfinite (x : Float) : Bool := magnitude x == infinityMagnitude

/-- Whether the number is neither infinite nor no number. -/
def isFinite (x : Float) : Bool := magnitude x < infinityMagnitude

/-- The exponent field of a magnitude. -/
def exponentField (magnitude : Nat) : Nat := magnitude / 2 ^ (52 : Nat)

/-- The fraction field of a magnitude. -/
def fractionField (magnitude : Nat) : Nat := magnitude % 2 ^ (52 : Nat)

/-- The units of `2 ^ -1074` that a finite magnitude stands for. -/
def unitsOfMagnitude (magnitude : Nat) : Nat :=
  if exponentField magnitude = 0 then fractionField magnitude
  else (2 ^ (52 : Nat) + fractionField magnitude) * 2 ^ (exponentField magnitude - 1)

/-- The units of `2 ^ -1074` in one. -/
def unitsPerOne : Nat := 2 ^ (1074 : Nat)

/-- The exact value of a finite number, in units of `2 ^ -1074`. -/
def units (x : Float) : Int :=
  if isNegative x then -(unitsOfMagnitude (magnitude x) : Int) else unitsOfMagnitude (magnitude x)

/-- The number with a given sign and magnitude. -/
def ofMagnitude (negative : Bool) (magnitude : Nat) : Float :=
  Float.ofBits (UInt64.ofNat (if negative then 2 ^ (63 : Nat) + magnitude else magnitude))

example : units 1.0 = unitsPerOne := by decide +kernel
example : unitsOfMagnitude 1 = 1 := by decide +kernel

end AlgebraicModel.Binary64
