import AlgebraicModel.Binary64.Rounding

/-!
# Comparing binary64 numbers

Three comparisons. `compare` is by value: the two zeros are equal, and what is no number is equal to
itself and above every number. `totalCompare` is by sign and magnitude, so the negative zero comes
before the positive one. `Closeness` lets numbers pass as equal that are not the same; by the usual
one they may differ by rounding only (`usualCloseness`).
-/

set_option autoImplicit false

namespace AlgebraicModel.Binary64

/-- The magnitude with its sign, which ascends with the value. Both zeros have the key zero. -/
def valueKey (x : Float) : Int :=
  if isNegative x then -(magnitude x : Int) else magnitude x

/-- The order by value, with what is no number at the top. -/
def compare (x y : Float) : Ordering :=
  match isNaN x, isNaN y with
  | true, true => .eq
  | true, false => .gt
  | false, true => .lt
  | false, false => Ord.compare (valueKey x) (valueKey y)

/-- The place of a number when all bit patterns stand in one line, the negative zero just below the
positive one. -/
def lineKey (x : Float) : Int :=
  if isNegative x then -(magnitude x : Int) - 1 else magnitude x

/-- The order on that line. There is one value here that is no number. It has no sign and stands
above every number; among bit patterns, one with a sign would stand below every number. -/
def totalCompare (x y : Float) : Ordering := Ord.compare (lineKey x) (lineKey y)

example : totalCompare (-0.0) 0.0 = .lt ∧ compare (-0.0) 0.0 = .eq := by decide +kernel

end AlgebraicModel.Binary64

namespace AlgebraicModel

/-- Which binary64 numbers pass as equal where a condition tests equality. -/
class Closeness where
  isClose : Float → Float → Bool

/-- Equal, or at most `2 ^ -52` apart, or at most four places apart on the line. -/
instance usualCloseness : Closeness where
  isClose x y :=
    x == y || (x - y).abs ≤ 2.220446049250313e-16 ||
      (Binary64.lineKey x - Binary64.lineKey y).natAbs ≤ 4

example : Closeness.isClose (0.1 + 0.2) 0.3 = true := by decide +kernel

end AlgebraicModel
