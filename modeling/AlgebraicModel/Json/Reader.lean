import AlgebraicModel.Json.Basic

/-!
# Reading JSON

`Json.read?` reads a text that holds one value and blanks around it, and nothing else. Each function
below takes what it is named for from the front of a list of characters and gives back the rest.
Values are nested, so the three functions that read them count down a bound on the steps; twice the
length of the text is enough.
-/

set_option autoImplicit false

namespace AlgebraicModel

namespace JsonNumber

/-- One or more digits. -/
def digits? (cs : List Char) : Option (List Char × List Char) :=
  let ds := cs.takeWhile Char.isDigit
  if ds.isEmpty then none else some (ds, cs.dropWhile Char.isDigit)

/-- The digits of a whole number, which begin with zero only when that is all. -/
def wholeDigits? : List Char → Option (List Char × List Char)
  | '0' :: cs => some (['0'], cs)
  | cs => digits? cs

/-- The digits behind a point, if there is a point. -/
def fraction? : List Char → Option (Option (List Char) × List Char)
  | '.' :: cs => do
    let (ds, cs) ← digits? cs
    return (some ds, cs)
  | cs => some (none, cs)

/-- A sign, or none. -/
def sign? : List Char → Bool × List Char
  | '-' :: cs => (true, cs)
  | cs => (false, cs)

/-- An exponent with its sign, behind its letter. -/
def signedExponent? (cs : List Char) : Option (Int × List Char) := do
  let (negative, cs) := match cs with
    | '+' :: cs => (false, cs)
    | cs => sign? cs
  let (ds, cs) ← digits? cs
  let n : Int := Nat.ofDigitChars 10 ds 0
  return (if negative then -n else n, cs)

/-- An exponent, if there is one. -/
def exponent? : List Char → Option (Option Int × List Char)
  | 'e' :: cs | 'E' :: cs => do
    let (n, cs) ← signedExponent? cs
    return (some n, cs)
  | cs => some (none, cs)

/-- The number with the given parts. A zero with a sign is not whole. -/
def ofParts (negative : Bool) (before : List Char) (behind : Option (List Char))
    (exponent : Option Int) : JsonNumber :=
  match behind, exponent with
  | none, none =>
    let n := Nat.ofDigitChars 10 before 0
    if negative then (if n = 0 then decimal true ⟨0, 0, 0⟩ else whole (-n)) else whole n
  | _, _ =>
    let behind := behind.getD []
    decimal negative
      ⟨Nat.ofDigitChars 10 (before ++ behind) 0, behind.length, exponent.getD 0⟩

/-- A number. -/
def read? (cs : List Char) : Option (JsonNumber × List Char) := do
  let (negative, cs) := sign? cs
  let (before, cs) ← wholeDigits? cs
  let (behind, cs) ← fraction? cs
  let (exponent, cs) ← exponent? cs
  return (ofParts negative before behind exponent, cs)

end JsonNumber

namespace Json

/-- The blanks between the parts of a value. -/
def isBlank (c : Char) : Bool := c == ' ' || c == '\t' || c == '\n' || c == '\r'

/-- What comes behind blanks. -/
def skipBlanks (cs : List Char) : List Char := cs.dropWhile isBlank

/-! ## Strings -/

/-- A character of a string as it is written. -/
inductive Piece where
  /-- A character, or a letter behind a backslash that stands for one. -/
  | char (c : Char)
  /-- A code unit of sixteen bits, given by its number. -/
  | unit (n : Nat)
deriving DecidableEq, Repr

/-- What a letter behind a backslash stands for. -/
def escaped? : Char → Option Char
  | '"' => some '"'
  | '\\' => some '\\'
  | '/' => some '/'
  | 'b' => some '\x08'
  | 'f' => some '\x0c'
  | 'n' => some '\n'
  | 'r' => some '\r'
  | 't' => some '\t'
  | _ => none

/-- The value of a hexadecimal digit. -/
def hexDigit? (c : Char) : Option Nat :=
  if '0' ≤ c ∧ c ≤ '9' then some (c.toNat - '0'.toNat)
  else if 'a' ≤ c ∧ c ≤ 'f' then some (c.toNat - 'a'.toNat + 10)
  else if 'A' ≤ c ∧ c ≤ 'F' then some (c.toNat - 'A'.toNat + 10)
  else none

/-- The code unit that four hexadecimal digits give. -/
def hexUnit? (a b c d : Char) : Option Nat := do
  return (((← hexDigit? a) * 16 + (← hexDigit? b)) * 16 + (← hexDigit? c)) * 16 + (← hexDigit? d)

/-- The pieces of a string, up to and with the closing quote. -/
def pieces? : List Char → Option (List Piece × List Char)
  | [] => none
  | '"' :: cs => some ([], cs)
  | '\\' :: 'u' :: a :: b :: c :: d :: cs => do
    let n ← hexUnit? a b c d
    let (ps, cs) ← pieces? cs
    return (.unit n :: ps, cs)
  | '\\' :: e :: cs => do
    let c ← escaped? e
    let (ps, cs) ← pieces? cs
    return (.char c :: ps, cs)
  | c :: cs =>
    if c = '\\' ∨ c.toNat < 32 then none
    else do
      let (ps, cs) ← pieces? cs
      return (.char c :: ps, cs)

/-- The character of a pair of code units. -/
def pairChar? (high low : Nat) : Option Char :=
  if 0xD800 ≤ high ∧ high < 0xDC00 ∧ 0xDC00 ≤ low ∧ low < 0xE000 then
    some (Char.ofNat (0x10000 + (high - 0xD800) * 0x400 + (low - 0xDC00)))
  else none

/-- The character of a single code unit. -/
def unitChar? (n : Nat) : Option Char :=
  if 0xD800 ≤ n ∧ n < 0xE000 then none else some (Char.ofNat n)

/-- The characters that pieces stand for, if none is left with half a character. -/
def joinPieces : List Piece → Option (List Char)
  | [] => some []
  | .char c :: ps => (c :: ·) <$> joinPieces ps
  | .unit n :: .unit m :: ps =>
    match pairChar? n m with
    | some c => (c :: ·) <$> joinPieces ps
    | none => do
      let c ← unitChar? n
      return c :: (← joinPieces (.unit m :: ps))
  | .unit n :: ps => do
    let c ← unitChar? n
    return c :: (← joinPieces ps)

/-- A string, behind its opening quote. -/
def string? (cs : List Char) : Option (JsonText × List Char) := do
  let (ps, cs) ← pieces? cs
  return ((joinPieces ps).map String.ofList, cs)

/-! ## Values -/

mutual

/-- A value. -/
def value? : Nat → List Char → Option (Json × List Char)
  | 0, _ => none
  | steps + 1, cs =>
    match skipBlanks cs with
    | '\x7b' :: cs =>
      match skipBlanks cs with
      | '\x7d' :: cs => some (object [], cs)
      | cs => do
        let (fields, cs) ← fields? steps cs
        return (object fields, cs)
    | '[' :: cs =>
      match skipBlanks cs with
      | ']' :: cs => some (array [], cs)
      | cs => do
        let (elements, cs) ← elements? steps cs
        return (array elements, cs)
    | '"' :: cs => do
      let (s, cs) ← string? cs
      return (string s, cs)
    | 'n' :: 'u' :: 'l' :: 'l' :: cs => some (null, cs)
    | 't' :: 'r' :: 'u' :: 'e' :: cs => some (bool true, cs)
    | 'f' :: 'a' :: 'l' :: 's' :: 'e' :: cs => some (bool false, cs)
    | cs => do
      let (n, cs) ← JsonNumber.read? cs
      return (number n, cs)

/-- One or more elements of an array, up to and with the closing bracket. -/
def elements? : Nat → List Char → Option (List Json × List Char)
  | 0, _ => none
  | steps + 1, cs => do
    let (v, cs) ← value? steps cs
    match skipBlanks cs with
    | ',' :: cs => do
      let (vs, cs) ← elements? steps cs
      return (v :: vs, cs)
    | ']' :: cs => return ([v], cs)
    | _ => none

/-- One or more fields of an object, up to and with the closing brace. -/
def fields? : Nat → List Char → Option (List (JsonText × Json) × List Char)
  | 0, _ => none
  | steps + 1, cs =>
    match skipBlanks cs with
    | '"' :: cs => do
      let (key, cs) ← string? cs
      match skipBlanks cs with
      | ':' :: cs => do
        let (v, cs) ← value? steps cs
        match skipBlanks cs with
        | ',' :: cs => do
          let (fields, cs) ← fields? steps cs
          return ((key, v) :: fields, cs)
        | '\x7d' :: cs => return ([(key, v)], cs)
        | _ => none
      | _ => none
    | _ => none

end

/-- The value that a text holds. -/
def read? (s : String) : Option Json := do
  let cs := s.toList
  let (v, rest) ← value? (2 * cs.length + 1) cs
  if (skipBlanks rest).isEmpty then some v else none

end Json

end AlgebraicModel
