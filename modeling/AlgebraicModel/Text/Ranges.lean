/-!
# Ranges of code points

A class of characters is given by closed ranges of code points. `inRanges` looks a code point up;
the tables themselves are in `Text.Blank` and `Text.Unprintable`.
-/

set_option autoImplicit false

namespace AlgebraicModel.Text

/-- Whether `n` lies in one of the closed ranges. -/
def inRanges (ranges : List (Nat × Nat)) (n : Nat) : Bool :=
  ranges.any fun r => r.1 ≤ n && n ≤ r.2

end AlgebraicModel.Text
