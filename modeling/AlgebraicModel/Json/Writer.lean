import AlgebraicModel.Decimal.Shortest
import AlgebraicModel.Json.Basic

/-!
# Writing JSON

`Json.write` writes a value without blanks. In a string the quote, the backslash and the controls
are escaped, by a letter where there is one for the control and by its code unit otherwise. A
numeral has a point or an exponent, so that it is not taken for a whole number. `JsonNumber.ofFloat`
is the number as which a binary64 number is written.
-/

set_option autoImplicit false

namespace AlgebraicModel

namespace JsonNumber

/-- A sign, if the number has one. -/
def sign (negative : Bool) : List Char := if negative then ['-'] else []

/-- The number as text. -/
def write : JsonNumber → List Char
  | whole n => sign (n < 0) ++ Nat.toDigits 10 n.natAbs
  | decimal negative x => sign negative ++ x.chars

/-- The number of a finite binary64 number: the shortest digits that round to it, the even ones at a
tie. -/
def ofFloat (x : Float) : JsonNumber :=
  let m := Binary64.magnitude x
  .decimal (Binary64.isNegative x)
    (.ofDecimal (if m = 0 then ⟨0, 0⟩ else Decimal.shortest .even m))

end JsonNumber

namespace Json

/-- The four hexadecimal digits of a code unit. -/
def hexUnit (n : Nat) : List Char :=
  [n / 4096 % 16, n / 256 % 16, n / 16 % 16, n % 16].map Nat.digitChar

/-- What stands behind a backslash for a character, if it is escaped so. -/
def escapeLetter? : Char → Option Char
  | '"' => some '"'
  | '\\' => some '\\'
  | '\x08' => some 'b'
  | '\x0c' => some 'f'
  | '\n' => some 'n'
  | '\r' => some 'r'
  | '\t' => some 't'
  | _ => none

/-- A character as it stands in a string. -/
def escape (c : Char) : List Char :=
  match escapeLetter? c with
  | some e => ['\\', e]
  | none => if c.toNat < 32 then '\\' :: 'u' :: hexUnit c.toNat else [c]

/-- A string between its quotes. An escape for half a character is written as the least one. -/
def writeText : JsonText → List Char
  | some s => '"' :: (s.toList.flatMap escape ++ ['"'])
  | none => '"' :: '\\' :: 'u' :: (hexUnit 0xD800 ++ ['"'])

/-- Texts with commas between them. -/
def commaSeparated : List (List Char) → List Char
  | [] => []
  | [s] => s
  | s :: t :: ss => s ++ ',' :: commaSeparated (t :: ss)

mutual

/-- The characters of a value. -/
def chars : Json → List Char
  | null => "null".toList
  | bool true => "true".toList
  | bool false => "false".toList
  | number n => n.write
  | string s => writeText s
  | array elements => '[' :: (commaSeparated (elementChars elements) ++ [']'])
  | object fields => '\x7b' :: (commaSeparated (fieldChars fields) ++ ['\x7d'])

/-- The characters of each element of an array. -/
def elementChars : List Json → List (List Char)
  | [] => []
  | v :: vs => v.chars :: elementChars vs

/-- The characters of each field of an object. -/
def fieldChars : List (JsonText × Json) → List (List Char)
  | [] => []
  | (key, v) :: fields => (writeText key ++ ':' :: v.chars) :: fieldChars fields

end

/-- The text of a value. -/
def write (v : Json) : String := String.ofList v.chars

end Json

end AlgebraicModel
