import AlgebraicModel.Declaration.Basic

/-!
# Plans

A plan is a declaration that has been checked against the kind of container that it asks for,
together with the representation chosen for it. Nothing is evaluated to make a plan.

Without a condition and without dependent index sets a declaration can be an array, dense if every
index set is written `1..N`. A map takes any declaration.
-/

set_option autoImplicit false

namespace AlgebraicModel

/-- How the elements of a collection are stored. -/
inductive Representation where
  | scalar | dense | axis | map
deriving DecidableEq, Repr

/-- A checked declaration and its representation. -/
structure Plan where
  declaration : Declaration
  representation : Representation

/-- Whether two index tuples of the plan can have the same key. -/
def Plan.checksDuplicates (p : Plan) : Bool := p.representation == .map

/-- Why a declaration has no plan. -/
inductive PlanError where
  /-- No container is of this kind. -/
  | unsupportedKind (name : String)
  /-- A condition on a single element. -/
  | conditionWithoutIndex
  /-- A condition on an array. -/
  | conditionalKind (kind : ContainerKind)
  /-- An array over dependent index sets. -/
  | dependentSets (set var : IndexSet) (kind : ContainerKind)
  /-- A dense array over a set that is not written `1..N`. -/
  | notOneBased (index : IndexSet) (kind : ContainerKind)

namespace PlanError

/-- The code of a failure. -/
def code : PlanError → ErrorCode
  | unsupportedKind _ => .unsupportedContainer
  | conditionWithoutIndex | conditionalKind _ => .conditionalIndexing
  | dependentSets _ _ _ => .dependentIndexSets
  | notOneBased _ _ => .notOneBasedRange

/-- What a reader is told. -/
def message : PlanError → String
  | unsupportedKind name =>
    "unable to build a container of kind `" ++ name ++ "`; expected auto, array, axis or map"
  | conditionWithoutIndex => "a condition requires at least one index"
  | conditionalKind kind =>
    "conditional indexing is incompatible with container kind `" ++ kind.text ++ "`"
  | dependentSets set var kind =>
    "index set `" ++ set.set.print ++ "` depends on index `" ++ var.name.text ++
      "`, which container kind `" ++ kind.text ++ "` does not support"
  | notOneBased index kind =>
    "index set `" ++ index.set.print ++ "` of `" ++ index.name.text ++
      "` is not of the form 1..N, required by container kind `" ++ kind.text ++ "`"

instance : Cause PlanError := ⟨fun _ => .specification, code, message⟩

end PlanError

namespace Declaration

/-- Whether every index set is written `1..N`. -/
def allOneBased (d : Declaration) : Bool := d.indices.all fun i => i.set.oneBasedUpper?.isSome

/-- Fails unless the declaration can be an array of the given kind. -/
def checkArray (d : Declaration) (kind : ContainerKind) : Except PlanError Unit := do
  if d.filter.isSome then throw (.conditionalKind kind)
  match d.dependency? with
  | some (set, var) => throw (.dependentSets set var kind)
  | none => return ()

/-- The representation of a declaration, if there is one for what it asks. -/
def representation (d : Declaration) : Except PlanError Representation := do
  if let .custom name := d.kind then throw (.unsupportedKind name)
  if d.isScalar then
    if d.filter.isSome then throw .conditionWithoutIndex
    return .scalar
  match d.kind with
  | .auto =>
    if d.filter.isSome || d.dependency?.isSome then return .map
    else if d.allOneBased then return .dense
    else return .axis
  | .map => return .map
  | .dense =>
    d.checkArray .dense
    match d.indices.find? fun i => i.set.oneBasedUpper?.isNone with
    | some index => throw (.notOneBased index .dense)
    | none => return .dense
  | .axis =>
    d.checkArray .axis
    return .axis
  | .custom name => throw (.unsupportedKind name)

/-- The plan of a declaration. -/
def plan (label : Label) (d : Declaration) : Except Error Plan :=
  (d.representation.map fun r => ⟨d, r⟩).mapError label.report

end Declaration

end AlgebraicModel
