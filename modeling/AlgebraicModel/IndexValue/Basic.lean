import AlgebraicModel.Binary64.Integer
import AlgebraicModel.Binary64.Order
import AlgebraicModel.Decimal.Shortest
import AlgebraicModel.Word

/-!
# Index values and keys

An index value is an integer, a binary64 number or a text. Index values are ordered by their exact
value: the integer `1` and the number `1.0` are the same place in an index set, numbers come before
texts, and texts are ordered by their code points. A key is a tuple of index values, one per index,
ordered like a dictionary.
-/

set_option autoImplicit false

namespace AlgebraicModel

/-- One element of an index set. -/
inductive IndexValue where
  /-- An integer. -/
  | int (n : Int64)
  /-- A binary64 number. -/
  | float (x : Float)
  /-- A text. -/
  | str (s : String)
deriving DecidableEq

namespace IndexValue

/-- The integer that the value is equal to, if any. -/
def int? : IndexValue → Option Int64
  | int n => some n
  | float x => Binary64.integral? x
  | str _ => none

/-- The value as a binary64 number, an integer being rounded. Texts have none. -/
def float? : IndexValue → Option Float
  | int n => some (Binary64.ofInt n.toInt)
  | float x => some x
  | str _ => none

/-- The order by exact value, numbers before texts. -/
def compare : IndexValue → IndexValue → Ordering
  | int a, int b => Ord.compare a.toInt b.toInt
  | float x, float y => Binary64.compare x y
  | int a, float y => Binary64.compareInt a y
  | float x, int b => (Binary64.compareInt b x).swap
  | str s, str t => Ord.compare s t
  | str _, _ => .gt
  | _, str _ => .lt

instance : Ord IndexValue := ⟨compare⟩

/-- The value as it is shown, a text without quotes. -/
def text : IndexValue → String
  | int n => toString n.toInt
  | float x => Binary64.text x
  | str s => s

@[simp] theorem int?_int (n : Int64) : (int n).int? = some n := rfl

@[simp] theorem int?_str (s : String) : (str s).int? = none := rfl

@[simp] theorem float?_str (s : String) : (str s).float? = none := rfl

example : compare (int 1) (float 1.0) = .eq ∧ compare (float (-2.5)) (int (-2)) = .lt := by
  decide +kernel

example : (float 3.0).int? = some 3 ∧ (float 3.5).int? = none := by decide +kernel

end IndexValue

/-- An index tuple, outermost index first. -/
abbrev Key := List IndexValue

namespace Key

/-- The order of a dictionary. -/
def compare : Key → Key → Ordering := List.compareLex IndexValue.compare

/-- The key as it stands in the name of an element: `1,a`. -/
def text (k : Key) : String := String.intercalate "," (k.map IndexValue.text)

end Key

end AlgebraicModel
