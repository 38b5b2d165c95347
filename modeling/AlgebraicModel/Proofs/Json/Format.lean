import AlgebraicModel.Declaration.Json
import AlgebraicModel.Proofs.Json.RoundTrip

/-!
# The laws of formats

A format has to read what it writes. It is held to this only for the values as which declarations
are stored (`Json.Serialized`): whole texts, integers of sixty-four bits, finite numbers, and arrays
and objects of these, nested no deeper than its reader may go (`Json.depth`). And it has to write a
finite binary64 number so that it is not taken for an integer. That the number made of it is the
same one again is no law: it is true of some numbers, and is asked where it is needed.

The usual format keeps to its laws, since it reads every value that it writes (`Json.read?_write`).
-/

set_option autoImplicit false

namespace AlgebraicModel

namespace Json

/-! ## Nesting -/

mutual

/-- How many arrays and objects are inside one another. -/
def depth : Json → Nat
  | array vs => elementsDepth vs + 1
  | object fields => fieldsDepth fields + 1
  | null | bool _ | number _ | string _ => 0

/-- The depth of the deepest of some values. -/
def elementsDepth : List Json → Nat
  | [] => 0
  | v :: vs => max v.depth (elementsDepth vs)

/-- The depth of the deepest value among some fields. -/
def fieldsDepth : List (JsonText × Json) → Nat
  | [] => 0
  | (_, v) :: fields => max v.depth (fieldsDepth fields)

end

@[simp] theorem depth_tagged (tag : String) (v : Json) : (tagged tag v).depth = v.depth + 1 := by
  rw [tagged, depth, fieldsDepth, fieldsDepth, Nat.max_zero]

/-! ## Laws -/

/-- The values as which declarations are stored. -/
inductive Serialized [JsonFormat] : Json → Prop
  | null : Serialized null
  | text (s : String) : Serialized (text s)
  | int (n : Int64) : Serialized (int n.toInt)
  | float {x : Float} (hx : Binary64.isFinite x = true) :
      Serialized (number (JsonFormat.ofFloat x))
  | array {vs : List Json} (hvs : ∀ v ∈ vs, Serialized v) : Serialized (array vs)
  | object {fields : List (JsonText × Json)} (hnames : ∀ f ∈ fields, f.1.isSome = true)
      (hvalues : ∀ f ∈ fields, Serialized f.2) : Serialized (object fields)

theorem Serialized.tagged [JsonFormat] {v : Json} (h : Serialized v) (tag : String) :
    Serialized (tagged tag v) :=
  .object (by simp) (by simp [h])

end Json

/-- What declarations need of a format. -/
class LawfulJsonFormat [JsonFormat] : Prop where
  /-- The text of a stored value holds the value. -/
  read?_write : ∀ v : Json, v.Serialized → v.depth ≤ JsonFormat.maxLevels →
    JsonFormat.read? (JsonFormat.write v) = some v
  /-- A finite binary64 number is not written like an integer. -/
  ofFloat_decimal : ∀ x, Binary64.isFinite x = true →
    ∃ negative n, JsonFormat.ofFloat x = .decimal negative n

instance : LawfulJsonFormat where
  read?_write v _ _ := v.read?_write
  ofFloat_decimal _ _ := ⟨_, _, rfl⟩

end AlgebraicModel
