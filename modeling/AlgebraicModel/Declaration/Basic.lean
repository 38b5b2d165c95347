import AlgebraicModel.Diagnostic
import AlgebraicModel.Expr.Names
import AlgebraicModel.Expr.Printer

/-!
# Declarations of indexed collections

A declaration describes a collection of variables or constraints: a name, one index set per
dimension, a condition that an index tuple has to meet, and the kind of container that is asked for.
A declaration without indices describes a single element.
-/

set_option autoImplicit false

namespace AlgebraicModel

/-- The kind of container that a declaration asks for. -/
inductive ContainerKind where
  /-- Whatever fits the index sets. -/
  | auto
  /-- An array over axes `1..N`. -/
  | dense
  /-- An array over axes given by their elements. -/
  | axis
  /-- A map from keys. -/
  | map
  /-- A kind that no container has. -/
  | custom (name : String)
deriving DecidableEq, Repr

namespace ContainerKind

/-- The kind that a text names, blanks around it aside. -/
def ofText (s : String) : ContainerKind :=
  let t := Text.trim s
  if t = "auto" then auto
  else if t = "array" ∨ t = "dense" then dense
  else if t = "axis" ∨ t = "axis_array" then axis
  else if t = "map" ∨ t = "sparse" then map
  else custom t

/-- The kind as it is shown. -/
def text : ContainerKind → String
  | auto => "auto"
  | dense => "array"
  | axis => "axis"
  | map => "map"
  | custom name => name

end ContainerKind

/-- One dimension of a declaration: an index and the set that it ranges over. -/
structure IndexSet where
  name : Name
  set : Expr

/-- The dimension at a position for which the user gave no index. A user's name cannot collide with
the one that it gets. -/
def IndexSet.anonymous (position : Nat) (set : Expr) : IndexSet :=
  ⟨Name.ofText ("#" ++ toString position), set⟩

/-- A declaration of an indexed collection. -/
structure Declaration where
  /-- The name of the collection, if it has one. -/
  name : Option Name
  indices : List IndexSet
  /-- The condition that an index tuple has to meet. -/
  filter : Option Expr
  kind : ContainerKind

namespace Declaration

/-- The declaration of a single anonymous element. -/
def single : Declaration := ⟨none, [], none, .auto⟩

/-- The indices, outermost first. -/
def indexNames (d : Declaration) : List Name := d.indices.map (·.name)

/-- The index sets, outermost first. -/
def indexSets (d : Declaration) : List Expr := d.indices.map (·.set)

/-- Whether the declaration describes a single element. -/
def isScalar (d : Declaration) : Bool := d.indices.isEmpty

/-- The name under which errors speak of the declaration. -/
def label (d : Declaration) : String :=
  match d.name with
  | some n => n.text
  | none => "<anonymous>"

/-- The first dimension whose set refers to an index declared before it, and that index. -/
def dependency? (d : Declaration) : Option (IndexSet × IndexSet) := do
  let (i, j) ← firstDependency? d.indexNames d.indexSets
  let set ← d.indices[i]?
  let var ← d.indices[j]?
  return (set, var)

end Declaration

end AlgebraicModel
