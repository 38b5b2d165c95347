import AlgebraicModel.IndexValue.Basic
import Std.Data.TreeSet

/-!
# Identities of index values

The identity of an index value is a plain record in which values that stand for the same place
coincide: an integral number has the identity of its integer. Tables that look index values up by
equality alone are keyed by identities. `firstRepeat?` finds the first key of a list whose identity
occurred before.
-/

set_option autoImplicit false

namespace AlgebraicModel

/-- What two index values share when they are the same place of an index set. -/
structure Identity where
  /-- The sort of value: an integer, another number, or a text. -/
  sort : Nat
  /-- The integer, or the bits of the number with its sign. -/
  word : Int
  /-- The text. -/
  text : String
deriving DecidableEq, Repr

namespace Identity

/-- An order on identities, which has no meaning for the values. -/
def compare : Identity → Identity → Ordering :=
  compareLex (compareOn Identity.sort) (compareLex (compareOn Identity.word) (compareOn Identity.text))

instance : Ord Identity := ⟨compare⟩

end Identity

namespace IndexValue

/-- The identity of an index value. -/
def identity (v : IndexValue) : Identity :=
  match v.int?, v with
  | some n, _ => ⟨0, n.toInt, ""⟩
  | none, float x =>
    ⟨1, if Binary64.isNaN x then Binary64.infinityMagnitude + 1 else Binary64.valueKey x, ""⟩
  | none, str s => ⟨2, 0, s⟩
  | none, int n => ⟨0, n.toInt, ""⟩

end IndexValue

namespace Key

/-- The identities along a key. -/
def identity (k : Key) : List Identity := k.map IndexValue.identity

/-- A set of key identities. -/
abbrev Seen := Std.TreeSet (List Identity) (List.compareLex Identity.compare)

/-- The first key whose identity is among `seen` or occurs earlier in the list. -/
def firstRepeatAfter? (seen : Seen) : List Key → Option Key
  | [] => none
  | k :: ks =>
    if seen.contains k.identity then some k else firstRepeatAfter? (seen.insert k.identity) ks

/-- The first key whose identity occurs earlier in the list. -/
def firstRepeat? (ks : List Key) : Option Key := firstRepeatAfter? ∅ ks

example : firstRepeat? [[.int 1], [.float 1.0]] = some [.float 1.0] := by decide +kernel

end Key

end AlgebraicModel
