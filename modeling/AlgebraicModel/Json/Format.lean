import AlgebraicModel.Json.Basic

/-!
# Formats

A declaration is stored as a JSON value. The text of a value, and the number of a binary64 number,
are left to a format. What is stored, and what a stored value stands for, is told relative to a
format; what a format has to keep to is told by its laws.
-/

set_option autoImplicit false

namespace AlgebraicModel

/-- A way to write JSON values as texts and to read them again. -/
class JsonFormat where
  /-- The text of a value. -/
  write : Json → String
  /-- The value that a text holds, if it holds one. -/
  read? : String → Option Json
  /-- The number that stands for a finite binary64 number. -/
  ofFloat : Float → JsonNumber
  /-- The binary64 number that a number stands for, if it is in range. -/
  toFloat? : JsonNumber → Option Float
  /-- The levels of arrays and objects that a reader may enter. -/
  maxLevels : Nat

end AlgebraicModel
