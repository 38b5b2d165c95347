import AlgebraicModel.Constraint.Basic
import AlgebraicModel.Relation.Canonical

/-!
# Building constraints

A registry holds a builder for each pairing of a category of functions with a category of sets.
`Registry.build` picks the builder of a pairing and runs it, and `Registry.buildForm` does so for a
canonical form, once for every element of a broadcast. `Registry.standard` knows bare variables in
any scalar set, affine functions in bounds and intervals, quadratic functions in bounds, and vectors
in cones; for some of the other pairings it has builders that say what is wrong.
-/

set_option autoImplicit false

namespace AlgebraicModel

/-- Why a constraint cannot be built. -/
inductive DispatchError (α : Type) where
  /-- The pairing has no builder. -/
  | noBuilder (f : FunctionCategory) (s : ConstraintSet α)
  | notSingleVariable (f : FunctionCategory)
  | notScalarSet (s : ConstraintSet α)
  | notAffine
  | notQuadratic (f : FunctionCategory)
  | twoSidedQuadratic
  | vectorInScalarSet (s : ConstraintSet α)
  /-- A broadcast into a set of vectors. -/
  | vectorBroadcast (s : ConstraintSet α)
  | notVectorOfVariables
  | notVariable (f : FunctionCategory)
  | notAffineVector
  | notAffineElement (f : FunctionCategory)
  /-- The number of components is not the dimension of the set. -/
  | wrongDimension (length : Nat) (s : VectorSet)
  /-- A range has no bound for an element. -/
  | noBound (element : Nat)

namespace DispatchError

variable {α : Type}

/-- The kind of a failure. -/
def kind : DispatchError α → ErrorKind
  | wrongDimension _ _ | noBound _ => .specification
  | _ => .dispatch

/-- The code of a failure. -/
def code : DispatchError α → ErrorCode
  | twoSidedQuadratic => .twoSidedQuadratic
  | vectorInScalarSet _ | vectorBroadcast _ => .unexpectedVector
  | wrongDimension _ _ | noBound _ => .mismatchedDimensions
  | _ => .noBuilder

/-- What a reader is told. -/
def message [Coefficient α] : DispatchError α → String
  | noBuilder f s => "no constraint builder for a " ++ f.text ++ " function in a " ++ s.text ++ " set"
  | notSingleVariable f => "expected a single variable, got " ++ f.text
  | notScalarSet s => "expected a scalar set, got " ++ s.text
  | notAffine => "expected an affine function"
  | notQuadratic f => "expected a quadratic function, got " ++ f.text
  | twoSidedQuadratic =>
    "two-sided quadratic constraints are not supported; split into two constraints"
  | vectorInScalarSet s =>
    "unexpected vector in scalar constraint with set " ++ s.text ++ "; use the broadcast operator"
  | vectorBroadcast s => "cannot broadcast membership in the vector set " ++ s.text
  | notVectorOfVariables => "expected a vector of variables"
  | notVariable f => "expected a variable, got " ++ f.text
  | notAffineVector => "expected a vector of affine functions"
  | notAffineElement f => "expected an affine function, got " ++ f.text
  | wrongDimension length s =>
    "function has " ++ toString length ++ " components but " ++ s.text ++ " has dimension " ++
      toString s.dimension
  | noBound element => "no bound for element " ++ toString element

instance [Coefficient α] : Cause (DispatchError α) := ⟨kind, code, message⟩

end DispatchError

variable {α : Type}

/-- Builds the constraint that holds a function in a set. -/
abbrev ConstraintBuilder (α : Type) :=
  Label → Function α → ConstraintSet α → Except Error (Constraint α)

/-! ## The standard builders -/

namespace Constraint

variable [Zero α] [One α] [Add α] [Sub α]

/-- A bare variable in a set. -/
def ofVariable (f : Function α) (s : ConstraintSet α) : Except (DispatchError α) (Constraint α) :=
  match f with
  | .var v => .ok ⟨.singleVariable v, s⟩
  | f => .error (.notSingleVariable f.category)

/-- An affine function in a set of scalars, its constant taken over into the set. -/
def ofAffine (f : Function α) (s : ConstraintSet α) : Except (DispatchError α) (Constraint α) :=
  match s with
  | .scalar s =>
    let (f, s) := f.relocate s
    match f.toAffine? with
    | some f => .ok ⟨.affine f, .scalar s⟩
    | none => .error .notAffine
  | s => .error (.notScalarSet s)

/-- A quadratic function in a set of scalars, its constant taken over into the set. -/
def ofQuadratic (f : Function α) (s : ConstraintSet α) :
    Except (DispatchError α) (Constraint α) :=
  match s with
  | .scalar s =>
    let (f, s) := f.relocate s
    match f with
    | .quadratic f => .ok ⟨.quadratic f, .scalar s⟩
    | f => .error (.notQuadratic f.category)
  | s => .error (.notScalarSet s)

/-- Fails unless a set of vectors has the given dimension. -/
def checkDimension (length : Nat) (s : ConstraintSet α) : Except (DispatchError α) Unit :=
  match s with
  | .vector s => if s.dimension = length then .ok () else .error (.wrongDimension length s)
  | .scalar _ => .ok ()

/-- The variable that a function is. -/
def asVariable (f : Function α) : Except (DispatchError α) VarRef :=
  match f with
  | .var v => .ok v
  | f => .error (.notVariable f.category)

/-- The affine function that a function is. -/
def asAffine (f : Function α) : Except (DispatchError α) (Affine α) :=
  match f.toAffine? with
  | some f' => .ok f'
  | none => .error (.notAffineElement f.category)

/-- A vector of variables in a set. -/
def ofVariables (f : Function α) (s : ConstraintSet α) :
    Except (DispatchError α) (Constraint α) :=
  match f with
  | .array elements => do
    checkDimension elements.length s
    return ⟨.vectorOfVariables (← elements.mapM asVariable), s⟩
  | _ => .error .notVectorOfVariables

/-- A vector of affine functions in a set. The functions keep their constants. -/
def ofAffineVector (f : Function α) (s : ConstraintSet α) :
    Except (DispatchError α) (Constraint α) :=
  match f with
  | .array elements => do
    checkDimension elements.length s
    return ⟨.vectorAffine (← elements.mapM asAffine), s⟩
  | _ => .error .notAffineVector

/-- The standard way to build a pairing, if there is one. -/
def standard? : FunctionCategory → SetCategory →
    Option (Function α → ConstraintSet α → Except (DispatchError α) (Constraint α))
  | .var, .bound | .var, .interval | .var, .integrality => some ofVariable
  | .constant, .bound | .constant, .interval | .affine, .bound | .affine, .interval =>
    some ofAffine
  | .quadratic, .bound => some ofQuadratic
  | .quadratic, .interval => some fun _ _ => .error .twoSidedQuadratic
  | .varVector, .vector => some ofVariables
  | .affineVector, .vector => some ofAffineVector
  | .varVector, _ | .affineVector, .bound | .affineVector, .interval | .affineVector, .integrality
  | .array, .bound | .array, .interval | .array, .integrality =>
    some fun _ s => .error (.vectorInScalarSet s)
  | _, _ => none

end Constraint

/-! ## Registries -/

/-- The builders, by the categories of function and set. -/
structure Registry (α : Type) where
  builder? : FunctionCategory → SetCategory → Option (ConstraintBuilder α)

namespace Registry

/-- The registry without builders. -/
def empty : Registry α := ⟨fun _ _ => none⟩

/-- Installs a builder for a pairing, in place of the one that is there. -/
def register (r : Registry α) (f : FunctionCategory) (s : SetCategory) (b : ConstraintBuilder α) :
    Registry α :=
  ⟨fun f' s' => if f' = f ∧ s' = s then some b else r.builder? f' s'⟩

@[simp] theorem builder?_register (r : Registry α) (f f' : FunctionCategory) (s s' : SetCategory)
    (b : ConstraintBuilder α) :
    (r.register f s b).builder? f' s' = if f' = f ∧ s' = s then some b else r.builder? f' s' := rfl

variable [Coefficient α]

/-- The builder of a way to build, which leaves its errors without a label. -/
def unlabelled (build : Function α → ConstraintSet α → Except (DispatchError α) (Constraint α)) :
    ConstraintBuilder α :=
  fun _ f s => (build f s).mapError Error.ofCause

/-- The registry of the standard pairings. -/
def standard [Zero α] [One α] [Add α] [Sub α] : Registry α :=
  ⟨fun f s => (Constraint.standard? f s).map unlabelled⟩

/-- Builds the constraint that holds a function in a set. -/
def build (r : Registry α) (l : Label) (f : Function α) (s : ConstraintSet α) :
    Except Error (Constraint α) :=
  match r.builder? f.category s.category with
  | none => .error (l.report (DispatchError.noBuilder f.category s))
  | some b => (b l f s).mapError l.attach

/-- The range of element `i`. -/
def rangeAt (l : Label) (lb ub : Bound α) (i : Nat) : Except Error (ScalarSet α) :=
  match lb.at? i, ub.at? i with
  | some lower, some upper => .ok (.interval lower upper)
  | _, _ => .error (l.report (DispatchError.noBound (i + 1) : DispatchError α))

variable [Zero α] [Sub α]

/-- Builds the constraint of one element, its constant taken over into the set. -/
def buildElement (r : Registry α) (l : Label) (f : Function α) (s : ScalarSet α) :
    Except Error (Constraint α) :=
  let (f, s) := f.relocate s
  r.build l f (.scalar s)

/-- Builds every constraint of a canonical form. -/
def buildForm (r : Registry α) (l : Label) : CanonicalForm α → Except Error (ConstraintGroup α)
  | .membership (.array elements) (.scalar s) true => do
    return .broadcast (← elements.mapM fun f => r.buildElement l f s)
  | .membership _ (.vector s) true =>
    .error (l.report (DispatchError.vectorBroadcast (.vector s) : DispatchError α))
  | .membership f s _ => do return .single (← r.build l f s)
  | .ranged lb (.array elements) ub true => do
    return .broadcast (← elements.zipIdx.mapM fun (f, i) => do
      r.buildElement l f (← rangeAt l lb ub i))
  | .ranged lb f ub _ => do
    return .single (← r.build l f (.scalar (← rangeAt l lb ub 0)))

end Registry

end AlgebraicModel
