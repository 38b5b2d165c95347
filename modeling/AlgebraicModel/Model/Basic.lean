import AlgebraicModel.Constraint.Basic
import AlgebraicModel.Diagnostic
import AlgebraicModel.Name
import AlgebraicModel.Variable

/-!
# Models

A model records variables and constraints in the order in which they are added, and the names that
objects are registered under. Nothing that is recorded changes later: a reference keeps denoting
what it was made for, and a registered name keeps its object.

A model refuses a constraint on a variable that it does not have, and a name that is taken.
-/

set_option autoImplicit false

namespace AlgebraicModel

/-- What a registered name stands for. -/
inductive NamedObject where
  | var (v : VarRef)
  | vars (vs : List VarRef)
  | constraint (c : ConstraintRef)
  | constraints (cs : List ConstraintRef)
deriving DecidableEq, Repr

/-- Something that a model holds, with its name if it has one. -/
structure Entry (β : Type) where
  content : β
  name : Option Name
deriving DecidableEq

/-- A model under construction. -/
structure Model (α : Type) where
  /-- The number of the model, which its references carry. -/
  id : Nat
  /-- Whether the names of elements are kept. -/
  stringNames : Bool
  vars : Array (Entry (VariableInfo α))
  constraints : Array (Entry (Constraint α))
  /-- The registered names. -/
  names : List (Name × NamedObject)

/-- Why a model refuses something. -/
inductive ModelError where
  /-- A variable of another model, or none at all. -/
  | foreignVariable (index : Nat)
  /-- The name is taken. -/
  | duplicateName (name : Name)
deriving DecidableEq, Repr

namespace ModelError

/-- The code of a refusal. -/
def code : ModelError → ErrorCode
  | foreignVariable _ => .foreignVariable
  | duplicateName _ => .duplicateName

/-- What a reader is told. -/
def message : ModelError → String
  | foreignVariable index =>
    "variable " ++ toString index ++
      " does not belong to this model; it was created by another model"
  | duplicateName name =>
    "an object of name " ++ name.text ++ " is already attached to this model"

instance : Cause ModelError := ⟨fun _ => .downstream, code, message⟩

end ModelError

namespace Model

variable {α : Type}

/-- A model that holds nothing. -/
def empty (id : Nat) (stringNames : Bool) : Model α := ⟨id, stringNames, #[], #[], []⟩

/-- What the model keeps of the name of an element. -/
def keptName (m : Model α) (name : Option Name) : Option Name :=
  if m.stringNames then name else none

/-! ## Reading -/

/-- Whether the model has the variable. -/
def hasVariable (m : Model α) (v : VarRef) : Bool :=
  v.model == m.id && v.index < m.vars.size

/-- What the model holds for a variable. -/
def variableEntry? (m : Model α) (v : VarRef) : Option (Entry (VariableInfo α)) :=
  if v.model = m.id then m.vars[v.index]? else none

/-- What the model holds for a constraint. -/
def constraintEntry? (m : Model α) (c : ConstraintRef) : Option (Entry (Constraint α)) :=
  if c.model = m.id then m.constraints[c.index]? else none

/-- The object that is registered under a name. -/
def lookup? (m : Model α) (n : Name) : Option NamedObject := m.names.lookup n

/-! ## Adding -/

/-- Adds a variable. -/
def addVariable (m : Model α) (info : VariableInfo α) (name : Option Name) : VarRef × Model α :=
  (⟨m.id, m.vars.size⟩, { m with vars := m.vars.push ⟨info, m.keptName name⟩ })

/-- Adds a constraint, unless it refers to a variable that the model does not have. -/
def addConstraint (m : Model α) (c : Constraint α) (name : Option Name) :
    Except ModelError (ConstraintRef × Model α) :=
  match c.func.vars.find? fun v => !m.hasVariable v with
  | some v => .error (.foreignVariable v.index)
  | none =>
    .ok (⟨m.id, m.constraints.size⟩,
      { m with constraints := m.constraints.push ⟨c, m.keptName name⟩ })

/-- Registers an object under a name, unless the name is taken. -/
def registerName (m : Model α) (n : Name) (o : NamedObject) : Except ModelError (Model α) :=
  if (m.lookup? n).isSome then .error (.duplicateName n)
  else .ok { m with names := (n, o) :: m.names }

@[simp] theorem vars_addVariable (m : Model α) (info : VariableInfo α) (name : Option Name) :
    (m.addVariable info name).2.vars = m.vars.push ⟨info, m.keptName name⟩ := rfl

@[simp] theorem fst_addVariable (m : Model α) (info : VariableInfo α) (name : Option Name) :
    (m.addVariable info name).1 = ⟨m.id, m.vars.size⟩ := rfl

end Model

end AlgebraicModel
