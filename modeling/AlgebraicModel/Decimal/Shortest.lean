import AlgebraicModel.Decimal.Basic

/-!
# The shortest decimal that reads back

Of the decimals that round to a given binary64 number, `shortest` takes one with the fewest digits,
and of those the nearest. When two are equally near, the caller says which one. It walks the decimal
grids from coarse to fine; on each grid only the two neighbours of the exact value can be nearest,
and the first grid on which one of them reads back decides.
-/

set_option autoImplicit false

namespace AlgebraicModel.Decimal

-- Powers of numbers are those of core, whichever other instances are in scope.
attribute [local instance (high)] instPowNat

/-- The exact value of a magnitude, counted in units of `10 ^ g`, as a quotient of naturals. -/
def gridRatio (m : Nat) (g : Int) : Nat × Nat :=
  (Binary64.unitsOfMagnitude m * 10 ^ (-g).toNat, Binary64.unitsPerOne * 10 ^ g.toNat)

/-- Which one of two decimals is taken that are equally near. -/
inductive Tie where
  | greater
  | even
deriving DecidableEq, Repr

/-- Whether the lower one of the neighbours `q` and `q + 1` of `q + r / den` comes first. -/
def Tie.prefersBelow (tie : Tie) (q r den : Nat) : Bool :=
  match compare (2 * r) den with
  | .lt => true
  | .gt => false
  | .eq => tie == even && q % 2 == 0

/-- The better of the two neighbours on the grid of `10 ^ g`, if one of them reads back to the
magnitude `m`. -/
def gridHit? (tie : Tie) (m : Nat) (g : Int) : Option Decimal :=
  let (num, den) := gridRatio m g
  let below : Decimal := ⟨num / den, g⟩
  let above : Decimal := ⟨num / den + 1, g⟩
  let order :=
    if tie.prefersBelow (num / den) (num % den) den then [below, above] else [above, below]
  order.find? fun d => d.magnitude == m

/-- The exponent of a grid that is coarser than the value of a positive magnitude. -/
def coarseGrid (m : Nat) : Int :=
  let s := Binary64.floorLog2 (Binary64.unitsOfMagnitude m) Binary64.unitsPerOne + 1
  (if 0 ≤ s then s / 3 else s * 3 / 10) + 1

/-- The exact value of a magnitude as a decimal. -/
def exact (m : Nat) : Decimal := ⟨Binary64.unitsOfMagnitude m * 5 ^ (1074 : Nat), -1074⟩

/-- The shortest decimal that reads back to a finite positive magnitude. -/
def shortest (tie : Tie) (m : Nat) : Decimal :=
  ((List.range 80).findSome? fun (i : Nat) => gridHit? tie m (coarseGrid m - i)).getD (exact m)

end Decimal

namespace Binary64

/-- The text of a magnitude: the shortest digits that read back, the greater ones at a tie, written
without an exponent. -/
def magnitudeText (m : Nat) : List Char :=
  if infinityMagnitude < m then "NaN".toList
  else if m = infinityMagnitude then "inf".toList
  else if m = 0 then ['0']
  else (Decimal.shortest .greater m).positional

/-- The text of a number. A negative sign is kept on zero and dropped on what is no number. -/
def text (x : Float) : String :=
  String.ofList
    (if isNegative x && !isNaN x then '-' :: magnitudeText (magnitude x)
     else magnitudeText (magnitude x))

example : text 0.1 = "0.1" ∧ text (0.1 + 0.2) = "0.30000000000000004" := by decide +kernel
example : text (-0.0) = "-0" ∧ text 1e21 = "1000000000000000000000" := by decide +kernel
example : text 2.98023223876953125e-8 = "0.000000029802322387695313" := by decide +kernel

end Binary64

end AlgebraicModel
