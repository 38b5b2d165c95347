import AlgebraicModel.Population.Basic

/-!
# Symmetric matrices

A symmetric matrix is declared over two index sets `1..N`. Its elements are built for the upper
triangle only, row by row, and the element of `(i, j)` is shared with `(j, i)`. `upperTriangle`
lists the upper triangle column by column, which is the order in which a cone of such matrices takes
it.
-/

set_option autoImplicit false

namespace AlgebraicModel

/-- An element that several places of a container hold in common, with the number of elements built
before it. -/
structure Shared (α : Type) where
  serial : Nat
  value : α

/-- Why a declaration is not that of a symmetric matrix. -/
inductive SymmetricError where
  | conditional
  /-- The matrix has another number of dimensions than two. -/
  | notTwoIndices (count : Nat)
  | dependentSets (set var : IndexSet)
  | notOneBased (index : IndexSet)
  /-- The upper end of an index set is not an integer. -/
  | sizeNotInteger (v : IndexValue)
  | notSquare (rows columns : Nat)
  /-- The declaration asks for another container than a dense array. -/
  | unsupportedKind (kind : ContainerKind)

namespace SymmetricError

/-- The code of a failure. -/
def code : SymmetricError → ErrorCode
  | conditional => .conditionalIndexing
  | notTwoIndices _ => .notSquare
  | dependentSets _ _ => .dependentIndexSets
  | notOneBased _ => .notOneBasedRange
  | sizeNotInteger _ => .expectedScalar
  | notSquare _ _ => .mismatchedDimensions
  | unsupportedKind _ => .unsupportedContainer

/-- What a reader is told. -/
def message : SymmetricError → String
  | conditional => "symmetric matrices do not support conditional indexing"
  | notTwoIndices count =>
    "symmetric matrices must be two-dimensional, got " ++ toString count ++ " indices"
  | dependentSets set var =>
    "index set `" ++ set.set.print ++ "` of a symmetric matrix depends on index `" ++
      var.name.text ++ "`"
  | notOneBased index =>
    "index set `" ++ index.set.print ++ "` of a symmetric matrix must be of the form 1..N"
  | sizeNotInteger v => "matrix size " ++ v.text ++ " is not an integer"
  | notSquare rows columns =>
    "symmetric matrices must be square, got " ++ toString rows ++ "x" ++ toString columns
  | unsupportedKind kind =>
    "symmetric matrices are always dense arrays, not `" ++ kind.text ++ "`"

instance : Cause SymmetricError := ⟨fun _ => .specification, code, message⟩

end SymmetricError

namespace Declaration

variable [Closeness] {σ α : Type}

/-- The length of a side, which is zero when the upper end of its range is below one. -/
def sideLength (l : Label) (params : Params) (i : IndexSet) : Except Error Nat := do
  match i.set.oneBasedUpper? with
  | none => throw (l.report (SymmetricError.notOneBased i))
  | some hi =>
    let v ← ((Bindings.ofParams params).evalScalar hi).mapError (Plan.evalFailure l)
    match v.int? with
    | some n => return n.toInt.toNat
    | none => throw (l.report (SymmetricError.sizeNotInteger v))

/-- The side of the symmetric matrix that the declaration describes. -/
def symmetricSize (l : Label) (d : Declaration) (params : Params) : Except Error Nat := do
  if d.filter.isSome then throw (l.report SymmetricError.conditional)
  match d.indices with
  | [row, column] =>
    if let some (set, var) := d.dependency? then
      throw (l.report (SymmetricError.dependentSets set var))
    let rows ← sideLength l params row
    let columns ← sideLength l params column
    if rows ≠ columns then throw (l.report (SymmetricError.notSquare rows columns))
    match d.kind with
    | .auto | .dense => return rows
    | kind => throw (l.report (SymmetricError.unsupportedKind kind))
  | indices => throw (l.report (SymmetricError.notTwoIndices indices.length))

/-- The key of row `i` and column `j`, counted from zero. -/
def cellKey (i j : Nat) : Key := [.int (Int64.ofNat (i + 1)), .int (Int64.ofNat (j + 1))]

/-- All cells of side `n`, row by row. -/
def allCells (n : Nat) : List (Nat × Nat) :=
  (List.range n).flatMap fun i => (List.range n).map fun j => (i, j)

section

variable {m : Type → Type} [Monad m]

/-- Fills the next cell of a square of side `n`, behind the data of the cells before it, for which a
number of elements were built. A cell on or above the diagonal gets an element of its own. One below
it gets that of its mirror image, which is in an earlier row. -/
def fillCell (n : Nat) (element : Nat × Nat → m α) :
    Array (Shared α) × Nat → Nat × Nat → m (Array (Shared α) × Nat)
  | (data, built), (i, j) =>
    if i ≤ j then do
      let a ← element (i, j)
      return (data.push ⟨built, a⟩, built + 1)
    else return (data[j * n + i]?.elim data data.push, built)

/-- The data of a square of side `n`, filled row by row. -/
def fillSquare (n : Nat) (element : Nat × Nat → m α) : m (Array (Shared α)) :=
  Prod.fst <$> (allCells n).foldlM (fillCell n element) (#[], 0)

end

/-- Builds the symmetric matrix of the declaration. -/
def populateSymmetric (l : Label) (d : Declaration) (params : Params) (build : Builder σ α) :
    BuildM σ (Container (Shared α)) := do
  let n ← BuildM.ofExcept (d.symmetricSize l params)
  let data ← fillSquare n fun (i, j) =>
    BuildM.labelled l (build (d.bindingsAt params (cellKey i j)))
  return .dense ⟨[n, n], data⟩

end Declaration

/-- The length of the first axis of a dense array, and zero for other containers. -/
def Container.side {α : Type} : Container α → Nat
  | .dense a => a.dims.headD 0
  | _ => 0

/-- The upper triangle of a square dense matrix, column by column. Other containers have none. -/
def Container.upperTriangle {α : Type} : Container α → List α
  | .dense ⟨[rows, columns], data⟩ =>
    if rows = columns then
      (List.range rows).flatMap fun j => (List.range (j + 1)).filterMap fun i =>
        (DenseArray.mk [rows, columns] data).get? (Declaration.cellKey i j)
    else []
  | _ => []

end AlgebraicModel
