/-!
# Row-major offsets

An array of several dimensions is stored as one sequence in which the last position varies fastest.
The stride of a dimension is the number of elements that one step along it skips. `offset` turns
positions, counted from zero, into a place in the sequence, and `positions` turns it back.
-/

set_option autoImplicit false

namespace AlgebraicModel.RowMajor

/-- The number of elements of an array. -/
def size (dims : List Nat) : Nat := dims.foldr (· * ·) 1

/-- The stride of each dimension. -/
def strides : List Nat → List Nat
  | [] => []
  | _ :: dims => size dims :: strides dims

/-- The place of an element in the sequence. -/
def offset (dims positions : List Nat) : Nat :=
  (List.zipWith (· * ·) positions (strides dims)).foldr (· + ·) 0

/-- The positions of the element at a place of the sequence. -/
def positions (dims : List Nat) (offset : Nat) : List Nat :=
  List.zipWith (fun stride dim => offset / stride % dim) (strides dims) dims

@[simp] theorem size_nil : size [] = 1 := rfl

@[simp] theorem size_cons (d : Nat) (dims : List Nat) : size (d :: dims) = d * size dims := rfl

@[simp] theorem length_strides (dims : List Nat) : (strides dims).length = dims.length := by
  induction dims with
  | nil => rfl
  | cons d dims ih => simp [strides, ih]

@[simp] theorem length_positions (dims : List Nat) (k : Nat) :
    (positions dims k).length = dims.length := by
  simp [positions]

example : strides [2, 3, 4] = [12, 4, 1] ∧ offset [2, 3, 4] [1, 2, 3] = 23 := by decide
example : positions [2, 3, 4] 23 = [1, 2, 3] := by decide

end AlgebraicModel.RowMajor
