import AlgebraicModel.Container.Axis
import AlgebraicModel.Container.Dense

/-!
# Containers

A container holds the elements that were built for a declaration: a single element, a dense array,
an array over axes, or a map from keys. Its storage order is row-major for arrays and ascending key
order for maps.
-/

set_option autoImplicit false

namespace AlgebraicModel

/-- A map from keys, ascending. -/
abbrev KeyMap (α : Type) := Std.TreeMap Key α Key.compare

/-- The elements of a collection. -/
inductive Container (α : Type) where
  /-- The element of a declaration without indices. -/
  | scalar (a : α)
  | dense (a : DenseArray α)
  | axis (a : AxisArray α)
  /-- The elements whose keys met the condition. -/
  | map (m : KeyMap α)

namespace Container

variable {α : Type}

/-- The element at a key. -/
def get? : Container α → Key → Option α
  | scalar a, k => if k.isEmpty then some a else none
  | dense a, k => a.get? k
  | axis a, k => a.get? k
  | map m, k => m[k]?

/-- The elements in storage order. -/
def values : Container α → List α
  | scalar a => [a]
  | dense a => a.data.toList
  | axis a => a.data.toList
  | map m => m.values

/-- The keys and elements in storage order. -/
def toList : Container α → List (Key × α)
  | scalar a => [([], a)]
  | dense a => a.data.toList.zipIdx.map fun (x, i) => (a.keyAt i, x)
  | axis a => a.data.toList.zipIdx.map fun (x, i) => (a.keyAt i, x)
  | map m => m.toList

/-- The keys in storage order. -/
def keys (c : Container α) : List Key := c.toList.map Prod.fst

/-- The number of elements. -/
def size : Container α → Nat
  | scalar _ => 1
  | dense a => a.data.size
  | axis a => a.data.size
  | map m => m.size

end Container

end AlgebraicModel
