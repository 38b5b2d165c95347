import AlgebraicModel.Decimal.Scaled

/-!
# Numerals

A numeral is a number without its sign, as it is written in JSON with a point or an exponent.

* `value` is the decimal that it stands for.
* `kept` is the decimal that a reader makes of it. The reader collects digits as long as they fit
  into sixty-four bits, first those before the point, then those behind it, and makes up for the
  digits that it drops by the power of ten.
* `ofDecimal` is the numeral that a writer chooses for a decimal, and `chars` its text.
-/

set_option autoImplicit false

namespace AlgebraicModel

/-- A number as it is written with a point or an exponent. The digits are those before and behind
the point, and the places are the number of those behind it. -/
structure Numeral where
  digits : Nat
  places : Nat
  exponent : Int
deriving DecidableEq, Repr

namespace Numeral

-- Powers of numbers are those of core, whichever other instances are in scope.
attribute [local instance (high)] instPowNat

/-- The decimal that the numeral stands for. -/
def value (x : Numeral) : Decimal := ⟨x.digits, x.exponent - x.places⟩

/-! ## Reading -/

/-- How many digits are dropped from the end of a number until it fits into sixty-four bits. -/
def excess (n : Nat) : Nat := if n < 2 ^ (64 : Nat) then 0 else excess (n / 10) + 1

/-- The decimal that a reader makes of the numeral. -/
def kept (x : Numeral) : Decimal :=
  let before := x.digits / 10 ^ x.places
  let both := before / 10 ^ excess before * 10 ^ x.places + x.digits % 10 ^ x.places
  ⟨both / 10 ^ excess both, x.value.exponent + excess before + excess both⟩

/-- The magnitude of the binary64 number that a reader makes of the numeral. -/
def magnitude (x : Numeral) : Nat := Binary64.magnitude x.kept.scaled

/-! ## Writing -/

/-- The numeral of a decimal. It has a point and no exponent when the first digit stands at most
sixteen places before the point or five behind it. Otherwise the point stands behind the first
digit, if there is another one. -/
def ofDecimal (d : Decimal) : Numeral :=
  let length := (Nat.toDigits 10 d.digits).length
  let before : Int := length + d.exponent
  if -5 < before ∧ before ≤ 16 then
    let places := max 1 (-d.exponent).toNat
    ⟨d.digits * 10 ^ (d.exponent + places).toNat, places, 0⟩
  else ⟨d.digits, length - 1, before - 1⟩

/-- The exponent behind its letter. -/
def exponentChars (e : Int) : List Char :=
  'e' :: ((if e < 0 then ['-'] else []) ++ Nat.toDigits 10 e.natAbs)

/-- The numeral as text. One without a point has an exponent. -/
def chars (x : Numeral) : List Char :=
  (Decimal.mk x.digits (-x.places)).positional ++
    (if x.exponent = 0 ∧ x.places ≠ 0 then [] else exponentChars x.exponent)

example : (ofDecimal ⟨15, 1⟩).chars = "150.0".toList := by decide +kernel
example : (ofDecimal ⟨15, -6⟩).chars = "0.000015".toList := by decide +kernel
example : (ofDecimal ⟨15, -7⟩).chars = "1.5e-6".toList := by decide +kernel
example : (ofDecimal ⟨1, 16⟩).chars = "1e16".toList := by decide +kernel

end Numeral

end AlgebraicModel
