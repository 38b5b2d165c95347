import AlgebraicModel.Json.Numeral

/-!
# JSON values

A JSON value as it is written: a number keeps its form, and the fields of an object keep their order
and may repeat. What a value means is for the reader of a particular kind of data to decide.
-/

set_option autoImplicit false

namespace AlgebraicModel

/-- A number as it is written. -/
inductive JsonNumber where
  /-- Digits only, behind a sign if the number is below zero. -/
  | whole (n : Int)
  /-- With a point or an exponent, or a zero with a sign. -/
  | decimal (negative : Bool) (x : Numeral)
deriving DecidableEq, Repr

/-- A text, unless one of its escapes stands for half a character. -/
abbrev JsonText := Option String

/-- A JSON value. -/
inductive Json where
  | null
  | bool (b : Bool)
  | number (n : JsonNumber)
  | string (s : JsonText)
  | array (elements : List Json)
  | object (fields : List (JsonText × Json))

namespace JsonNumber

/-- The nearest binary64 number, which is infinite when the number is out of range. -/
def nearest : JsonNumber → Float
  | whole n => (Decimal.mk n.natAbs 0).toFloat (n < 0)
  | decimal negative x => x.value.toFloat negative

/-- The sign of the number, and what stands behind it. -/
def signed : JsonNumber → Bool × Numeral
  | whole n => (n < 0, ⟨n.natAbs, 0, 0⟩)
  | decimal negative x => (negative, x)

/-- The binary64 number that a reader makes of the number, if it is in range. It may differ from the
nearest one in its last bits. -/
def float? (n : JsonNumber) : Option Float :=
  let m := n.signed.2.magnitude
  if m < Binary64.infinityMagnitude then some (Binary64.ofMagnitude n.signed.1 m) else none

example : (whole 3).float? = some 3.0 := by decide +kernel
example : (decimal true ⟨0, 0, 0⟩).float? = some (-0.0) := by decide +kernel
example : (decimal false ⟨1, 0, 400⟩).float? = none := by decide +kernel

end JsonNumber

namespace Json

/-- A text without escapes that fail. -/
def text (s : String) : Json := string (some s)

/-- A whole number. -/
def int (n : Int) : Json := number (.whole n)

/-- An object with one field, the way in which a choice with data is written. -/
def tagged (tag : String) (payload : Json) : Json := object [(some tag, payload)]

/-- The only field of an object. -/
def tagged? : Json → Option (String × Json)
  | object [(some tag, payload)] => some (tag, payload)
  | _ => none

/-- The text of a string. -/
def text? : Json → Option String
  | string s => s
  | _ => none

@[simp] theorem tagged?_tagged (tag : String) (payload : Json) :
    (tagged tag payload).tagged? = some (tag, payload) := rfl

@[simp] theorem text?_text (s : String) : (text s).text? = some s := rfl

end Json

end AlgebraicModel
