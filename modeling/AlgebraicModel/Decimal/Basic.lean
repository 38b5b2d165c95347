import AlgebraicModel.Binary64.Rounding

/-!
# Decimals

A decimal is a natural number of digits times a power of ten. `magnitude` rounds it to the nearest
binary64 number, and `positional` writes it without an exponent.
-/

set_option autoImplicit false

namespace AlgebraicModel

/-- The number `digits * 10 ^ exponent`. -/
structure Decimal where
  digits : Nat
  exponent : Int
deriving DecidableEq, Repr

namespace Decimal

-- Powers of numbers are those of core, whichever other instances are in scope.
attribute [local instance (high)] instPowNat

/-- The decimal as a quotient of naturals. -/
def ratio (d : Decimal) : Nat × Nat :=
  (d.digits * 10 ^ d.exponent.toNat, 10 ^ (-d.exponent).toNat)

/-- The magnitude of the nearest binary64 number. A decimal of more than four hundred places before
or after the point is infinite or zero, and its power of ten is never computed. -/
def magnitude (d : Decimal) : Nat :=
  if d.digits = 0 then 0
  else if 400 < d.exponent then Binary64.infinityMagnitude
  else if d.exponent < -(400 + Nat.log2 d.digits : Int) then 0
  else Binary64.nearestMagnitude d.ratio.1 d.ratio.2

/-- The nearest binary64 number, with the given sign. -/
def toFloat (d : Decimal) (negative : Bool) : Float :=
  Binary64.ofMagnitude negative d.magnitude

/-- The digits before the point and those behind it. -/
def split (d : Decimal) : List Char × List Char :=
  let ds := Nat.toDigits 10 d.digits
  if 0 ≤ d.exponent then (ds ++ List.replicate d.exponent.toNat '0', [])
  else
    let places := (-d.exponent).toNat
    let padded := List.replicate (places + 1 - ds.length) '0' ++ ds
    (padded.take (padded.length - places), padded.drop (padded.length - places))

/-- Written without an exponent, and without a point when nothing stands behind it. -/
def positional (d : Decimal) : List Char :=
  let (before, behind) := d.split
  if behind.isEmpty then before else before ++ '.' :: behind

example : (Decimal.mk 15 (-1)).positional = "1.5".toList := by decide +kernel
example : (Decimal.mk 15 (-3)).positional = "0.015".toList := by decide +kernel
example : (Decimal.mk 15 1).positional = "150".toList := by decide +kernel
example : (Decimal.mk 1 400).magnitude = Binary64.infinityMagnitude := by decide +kernel

end Decimal

end AlgebraicModel
