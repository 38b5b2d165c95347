import AlgebraicModel.Decimal.Basic

/-!
# Decimals read by scaling

`Decimal.magnitude` rounds once. A reader that works in binary64 from the start rounds more often:
it rounds the digits, and then multiplies or divides by a power of ten that is rounded too.
`Decimal.scaled` is what such a reader gets. Digits up to `2 ^ 53` are exact, and so are the powers
of ten up to `10 ^ 22`; elsewhere the last bits may differ from those of the nearest number.

The greatest power of ten in range is `10 ^ 308`. The reader divides by a greater one in two steps,
and it does not multiply by one.
-/

set_option autoImplicit false

namespace AlgebraicModel.Decimal

/-- The binary64 number nearest to a power of ten. -/
def tenTo (n : Nat) : Float := (Decimal.mk 1 n).toFloat false

/-- The digits as a binary64 number, scaled by the power of ten. The digits have at most sixty-four
bits, so that nothing is left of them under a power of ten below `10 ^ -616`. -/
def scaled (d : Decimal) : Float :=
  let x := (Decimal.mk d.digits 0).toFloat false
  if d.digits = 0 then x
  else if 308 < d.exponent then Binary64.ofMagnitude false Binary64.infinityMagnitude
  else if 0 ≤ d.exponent then x * tenTo d.exponent.toNat
  else if -308 ≤ d.exponent then x / tenTo (-d.exponent).toNat
  else if -616 ≤ d.exponent then x / tenTo 308 / tenTo (-d.exponent - 308).toNat
  else Binary64.ofMagnitude false 0

example : (Decimal.mk 25 (-1)).scaled = 2.5 := by decide +kernel
example : (Decimal.mk 93 47).scaled ≠ (Decimal.mk 93 47).toFloat false := by decide +kernel
example : (Decimal.mk 5 (-324)).scaled = 5e-324 := by decide +kernel

end AlgebraicModel.Decimal
