import AlgebraicModel.Constraint.Registry
import AlgebraicModel.Model.Basic
import AlgebraicModel.Population.Symmetric
import AlgebraicModel.Relation.Canonical

/-!
# Adding collections to a model

A declaration is brought into a model as a whole: a variable for each of its keys
(`Declaration.addVariables`), the constraints of a relation for each of its keys
(`Declaration.addConstraints`), or a symmetric matrix of variables
(`Declaration.addSymmetricVariables`). The caller describes the element at the bound indices, and
may keep a state of its own beside the model. At the end the name of the declaration is registered
for what was added.

When something fails, what was added before stays in the model, and the error carries the label of
the declaration.
-/

set_option autoImplicit false

namespace AlgebraicModel

/-- A computation on a model under construction, beside a state of the caller. -/
abbrev AssemblyM (α σ : Type) := BuildM (Model α × σ)

namespace Model

variable {α σ : Type}

/-- Adds a variable to the model at hand. -/
def pushVariable (info : VariableInfo α) (name : Option Name) : AssemblyM α σ VarRef :=
  BuildM.onFirst do
    let (v, m) := (← get).addVariable info name
    set m
    return v

/-- Adds a constraint to the model at hand. -/
def pushConstraint (c : Constraint α) (name : Option Name) : AssemblyM α σ ConstraintRef :=
  BuildM.onFirst do
    let (r, m) ← BuildM.ofExcept (((← get).addConstraint c name).mapError Error.ofCause)
    set m
    return r

/-- Registers an object in the model at hand, under the name of a declaration if it has one. -/
def pushName (l : Label) (name : Option Name) (o : NamedObject) : AssemblyM α σ Unit :=
  match name with
  | none => return ()
  | some n => BuildM.onFirst do
    let m ← BuildM.ofExcept (((← get).registerName n o).mapError l.report)
    set m

end Model

/-- The constraints that were added for one key. -/
inductive ConstraintRefs where
  | single (c : ConstraintRef)
  /-- One constraint for each element of a broadcast. -/
  | broadcast (cs : List ConstraintRef)
deriving DecidableEq, Repr

/-- The references to the constraints of one key, in order. -/
def ConstraintRefs.toList : ConstraintRefs → List ConstraintRef
  | single c => [c]
  | broadcast cs => cs

/-- The object that a collection of variables is registered as. -/
def Container.variableObject : Container VarRef → NamedObject
  | .scalar v => .var v
  | c => .vars c.values

/-- The object that a collection of constraints is registered as. -/
def Container.constraintObject : Container ConstraintRefs → NamedObject
  | .scalar (.single c) => .constraint c
  | c => .constraints (c.values.flatMap ConstraintRefs.toList)

/-- A symmetric matrix of variables, and the constraint that makes it positive semidefinite if one
was asked for. -/
structure SymmetricVariables where
  matrix : Container (Shared VarRef)
  psdConstraint : Option ConstraintRef

namespace Declaration

variable [Closeness] {α σ : Type}

/-- The label of errors about a collection of variables. -/
def variableLabel (d : Declaration) : Label := ⟨"variable " ++ d.label⟩

/-- The label of errors about a collection of constraints. -/
def constraintLabel (d : Declaration) : Label := ⟨"constraint " ++ d.label⟩

/-- The name of the element at a key, which an anonymous collection does not have. -/
def elementName (d : Declaration) (k : Key) : Option Name :=
  d.name.map fun n => if d.isScalar then n else n.subscript k.text

/-! ## Variables -/

variable [Coefficient α]

/-- Adds the variable at the bound indices. -/
def addVariableAt (d : Declaration) (describe : Builder σ (VariableDecl α)) :
    Builder (Model α × σ) VarRef := fun b => do
  let decl ← BuildM.onSecond (describe b)
  let info ← BuildM.ofExcept (decl.resolve d.variableLabel)
  Model.pushVariable info (d.elementName b.key)

/-- Adds one variable for each key of the declaration. -/
def addVariables (d : Declaration) (params : Params) (describe : Builder σ (VariableDecl α)) :
    AssemblyM α σ (Container VarRef) := do
  let plan ← BuildM.ofExcept (d.plan d.variableLabel)
  let c ← plan.populate d.variableLabel params (d.addVariableAt describe)
  Model.pushName d.variableLabel d.name c.variableObject
  return c

variable [Zero α] [One α] [Neg α] [Add α] [Sub α] [Mul α]

/-! ## Constraints -/

/-- Adds the constraints of a group. Those of a broadcast are numbered from one. -/
def addGroup (name : Option Name) : ConstraintGroup α → AssemblyM α σ ConstraintRefs
  | .single c => do return .single (← Model.pushConstraint c name)
  | .broadcast cs => do
    return .broadcast (← cs.zipIdx.mapM fun (c, i) =>
      Model.pushConstraint c (name.map (·.subscript (toString (i + 1)))))

/-- Adds the constraints of the relation at the bound indices. -/
def addConstraintsAt (d : Declaration) (registry : Registry α) (describe : Builder σ (Relation α)) :
    Builder (Model α × σ) ConstraintRefs := fun b => do
  let relation ← BuildM.onSecond (describe b)
  let form ← BuildM.ofExcept (relation.canonicalize d.constraintLabel)
  let group ← BuildM.ofExcept (registry.buildForm d.constraintLabel form)
  addGroup (d.elementName b.key) group

/-- Adds the constraints of one relation for each key of the declaration. -/
def addConstraints (d : Declaration) (registry : Registry α) (params : Params)
    (describe : Builder σ (Relation α)) : AssemblyM α σ (Container ConstraintRefs) := do
  let plan ← BuildM.ofExcept (d.plan d.constraintLabel)
  let c ← plan.populate d.constraintLabel params (d.addConstraintsAt registry describe)
  Model.pushName d.constraintLabel d.name c.constraintObject
  return c

/-! ## Symmetric matrices -/

/-- Adds the constraint that a matrix given by its upper triangle is positive semidefinite. -/
def addPsdConstraint (d : Declaration) (registry : Registry α) (side : Nat) (upper : List VarRef) :
    AssemblyM α σ ConstraintRef := do
  let c ← BuildM.ofExcept (registry.build d.variableLabel (.array (upper.map .var))
    (.vector (.psdTriangle side)))
  BuildM.labelled d.variableLabel (Model.pushConstraint c none)

/-- Adds a symmetric matrix of variables, positive semidefinite if `psd` is set. -/
def addSymmetricVariables (d : Declaration) (registry : Registry α) (params : Params) (psd : Bool)
    (describe : Builder σ (VariableDecl α)) : AssemblyM α σ SymmetricVariables := do
  let matrix ← d.populateSymmetric d.variableLabel params (d.addVariableAt describe)
  let upper := matrix.upperTriangle.map (·.value)
  let psdConstraint ←
    if psd then some <$> d.addPsdConstraint registry matrix.side upper else pure none
  Model.pushName d.variableLabel d.name (.vars upper)
  return ⟨matrix, psdConstraint⟩

end Declaration

end AlgebraicModel
