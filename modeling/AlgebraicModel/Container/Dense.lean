import AlgebraicModel.Container.RowMajor
import AlgebraicModel.IndexValue.Basic

/-!
# Dense arrays

Storage over axes that are all `1..N`. A key is a tuple of integers counted from one; a number that
is equal to an integer serves as well.
-/

set_option autoImplicit false

namespace AlgebraicModel

/-- An array over axes `1..N`, in row-major order. -/
structure DenseArray (α : Type) where
  dims : List Nat
  data : Array α

namespace DenseArray

variable {α : Type}

/-- The position along an axis of length `dim` that an index value stands for. -/
def position? (dim : Nat) (v : IndexValue) : Option Nat := do
  let n ← v.int?
  if 1 ≤ n.toInt ∧ n.toInt ≤ dim then some (n.toInt - 1).toNat else none

/-- The positions that a key stands for. -/
def positions? : List Nat → Key → Option (List Nat)
  | [], [] => some []
  | dim :: dims, v :: k => do
    let p ← position? dim v
    let ps ← positions? dims k
    return p :: ps
  | _, _ => none

/-- The element at a key. -/
def get? (a : DenseArray α) (k : Key) : Option α := do
  let ps ← positions? a.dims k
  a.data[RowMajor.offset a.dims ps]?

/-- The key of the element at a place of the sequence. -/
def keyAt (a : DenseArray α) (offset : Nat) : Key :=
  (RowMajor.positions a.dims offset).map fun p => .int (Int64.ofNat (p + 1))

end DenseArray

end AlgebraicModel
