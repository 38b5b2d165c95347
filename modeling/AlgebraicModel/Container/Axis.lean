import AlgebraicModel.Container.RowMajor
import AlgebraicModel.IndexValue.Identity
import Std.Data.TreeMap

/-!
# Axes and arrays over them

An axis is a list of different index values in declared order, with a table that finds the position
of a value. The table is keyed by identities, so an integral number finds its integer. An axis array
is row-major storage over such axes.
-/

set_option autoImplicit false

namespace AlgebraicModel

/-- The positions of index values, by identity. -/
abbrev PositionTable := Std.TreeMap Identity Nat Identity.compare

/-- The elements of one dimension, and where each of them is. -/
structure Axis where
  elements : List IndexValue
  table : PositionTable

namespace Axis

/-- Enters values into a table from position `i` on, or gives back the first value that is there
already. -/
def tabulate (table : PositionTable) (i : Nat) : List IndexValue → Except IndexValue PositionTable
  | [] => .ok table
  | v :: vs =>
    if table.contains v.identity then .error v
    else tabulate (table.insert v.identity i) (i + 1) vs

/-- The axis of a list of values, or the first value that is equal to an earlier one. -/
def ofList (elements : List IndexValue) : Except IndexValue Axis :=
  (tabulate ∅ 0 elements).map fun table => ⟨elements, table⟩

/-- The number of elements. -/
def size (a : Axis) : Nat := a.elements.length

/-- The position of a value. -/
def position? (a : Axis) (v : IndexValue) : Option Nat := a.table[v.identity]?

end Axis

/-- An array over axes, in row-major order. -/
structure AxisArray (α : Type) where
  axes : List Axis
  data : Array α

namespace AxisArray

variable {α : Type}

/-- The lengths of the axes. -/
def dims (a : AxisArray α) : List Nat := a.axes.map Axis.size

/-- The positions that a key stands for. -/
def positions? : List Axis → Key → Option (List Nat)
  | [], [] => some []
  | axis :: axes, v :: k => do
    let p ← axis.position? v
    let ps ← positions? axes k
    return p :: ps
  | _, _ => none

/-- The element at a key. -/
def get? (a : AxisArray α) (k : Key) : Option α := do
  let ps ← positions? a.axes k
  a.data[RowMajor.offset a.dims ps]?

/-- The key of the element at a place of the sequence. -/
def keyAt (a : AxisArray α) (offset : Nat) : Key :=
  (List.zipWith (fun axis p => axis.elements[p]?) a.axes
    (RowMajor.positions a.dims offset)).filterMap id

end AxisArray

end AlgebraicModel
