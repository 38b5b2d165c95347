import AlgebraicModel.Binary64.Basic

/-!
# Rounding a quotient to binary64

`nearestMagnitude num den` is the magnitude of the binary64 number nearest to `num / den`, a tie
going to the even magnitude. The quotient is scaled so that its integer part has fifty-three binary
digits, or as many as the least exponent leaves, and this integer part is rounded. Scale and
integer part then add up to the magnitude, a carry into the next power of two included.
-/

set_option autoImplicit false

namespace AlgebraicModel.Binary64

-- Powers of numbers are those of core, whichever other instances are in scope.
attribute [local instance (high)] instPowNat

/-- The integer nearest to `num / den`, a tie going to the even neighbour. -/
def roundHalfEven (num den : Nat) : Nat :=
  let q := num / den
  match compare (2 * (num % den)) den with
  | .lt => q
  | .gt => q + 1
  | .eq => q + q % 2

/-- The fraction `num / den / 2 ^ s` as a pair of naturals. -/
def scaleDown (num den : Nat) (s : Int) : Nat × Nat :=
  (num * 2 ^ (-s).toNat, den * 2 ^ s.toNat)

/-- The greatest `s` with `2 ^ s ≤ num / den`, for positive `num` and `den`. -/
def floorLog2 (num den : Nat) : Int :=
  let s : Int := (Nat.log2 num : Int) - Nat.log2 den
  let scaled := scaleDown num den s
  if scaled.2 ≤ scaled.1 then s else s - 1

/-- The magnitude of the binary64 number nearest to `num / den`, infinite when that is out of
range. -/
def nearestMagnitude (num den : Nat) : Nat :=
  if num = 0 then 0
  else
    let s := max (floorLog2 num den - 52) (-1074)
    let scaled := scaleDown num den s
    min ((s + 1074).toNat * 2 ^ (52 : Nat) + roundHalfEven scaled.1 scaled.2) infinityMagnitude

/-- The number nearest to an integer. -/
def ofInt (n : Int) : Float :=
  ofMagnitude (n < 0) (nearestMagnitude n.natAbs 1)

example : nearestMagnitude 1 1 = 1023 * 2 ^ 52 := by decide +kernel
example : ofInt 9007199254740993 = ofInt 9007199254740992 := by decide +kernel

end AlgebraicModel.Binary64
