import AlgebraicModel.Text.Unprintable

/-!
# Quoted text

A text constant is written between double quotes. Inside, the quote and the backslash stand behind
a backslash, the four common controls have a letter, and any other unprintable character is given by
its code point in hexadecimal. `escape` writes one character, `quoted` a whole text.
-/

set_option autoImplicit false

namespace AlgebraicModel.Text

/-- The digits of a code point in lower-case hexadecimal, without leading zeros. -/
def hexDigits (n : Nat) : List Char := Nat.toDigits 16 n

/-- The letter that stands for a character behind a backslash, if it has one. -/
def escapeLetter? : Char → Option Char
  | '"' => some '"'
  | '\\' => some '\\'
  | '\n' => some 'n'
  | '\r' => some 'r'
  | '\t' => some 't'
  | '\x00' => some '0'
  | _ => none

/-- A character as it stands between the quotes. -/
def escape (c : Char) : List Char :=
  match escapeLetter? c with
  | some l => ['\\', l]
  | none =>
    if isUnprintable c then '\\' :: 'u' :: '\x7b' :: (hexDigits c.toNat ++ ['\x7d']) else [c]

/-- A text between double quotes, escaped. -/
def quoted (s : String) : String :=
  String.ofList ('"' :: (s.toList.flatMap escape ++ ['"']))

example : quoted "a\"b\\" = "\"a\\\"b\\\\\"" := by decide +kernel
example : quoted "\t\x1b" = "\"\\t\\u\x7b1b\x7d\"" := by decide +kernel

end AlgebraicModel.Text
