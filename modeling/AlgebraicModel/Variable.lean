import AlgebraicModel.Relation.Comparison

/-!
# Variable declarations

What is said of a variable where it is declared: bounds in any of the ways in which they are
written, flags and a start value. `VariableDecl.resolve` sums them up and refuses a declaration that
gives a bound twice or contradicts itself.
-/

set_option autoImplicit false

namespace AlgebraicModel

/-- What a model is told about a variable. -/
structure VariableInfo (α : Type) where
  lower : Option α
  upper : Option α
  fixed : Option α
  integer : Bool
  binary : Bool
  start : Option α
deriving DecidableEq

/-- A bound written next to a variable. -/
inductive VariableBound (α : Type) where
  /-- `x op value`, or `value op x` when the variable is not on the left. -/
  | oneSided (op : Comparison) (value : α) (variableOnLeft : Bool)
  /-- `lb op₁ x op₂ ub`. -/
  | ranged (lb : α) (op₁ op₂ : Comparison) (ub : α)
  /-- The variable is in `s`. -/
  | membership (s : ScalarSet α)
deriving DecidableEq

/-- The declaration of a variable. -/
structure VariableDecl (α : Type) where
  bounds : List (VariableBound α)
  integer : Bool
  binary : Bool
  start : Option α
deriving DecidableEq

/-- The part of a variable's information that a bound gives. -/
inductive BoundSlot where
  | lower | upper | fixed
deriving DecidableEq, Repr

/-- The part as it is shown. -/
def BoundSlot.text : BoundSlot → String
  | lower => "lower bound"
  | upper => "upper bound"
  | fixed => "fixed value"

/-- Why a declaration of a variable is refused. -/
inductive VariableError where
  | notANumber
  | twice (slot : BoundSlot)
  | fixedAndBounded
  | integerAndBinary
  /-- The operator bounds nothing. -/
  | unrecognized (op : Comparison)
  /-- The two operators do not point the same way. -/
  | rangedOperators (op₁ op₂ : Comparison)

namespace VariableError

/-- The code of a failure. -/
def code : VariableError → ErrorCode
  | notANumber | twice _ | fixedAndBounded | integerAndBinary => .badVariableBounds
  | unrecognized _ => .unrecognizedRelation
  | rangedOperators _ _ => .badRangedOperators

/-- What a reader is told. -/
def message : VariableError → String
  | notANumber => "variable bound is NaN"
  | twice slot => "cannot specify variable " ++ slot.text ++ " twice"
  | fixedAndBounded =>
    "cannot specify variable fixed value if lower or upper bound specified"
  | integerAndBinary => "a variable cannot be both integer and binary"
  | unrecognized op => "unrecognized relation `" ++ op.symbol ++ "` in variable bound"
  | rangedOperators op₁ op₂ =>
    "unsupported ranged operators `" ++ op₁.symbol ++ "` and `" ++ op₂.symbol ++
      "` in variable bound"

instance : Cause VariableError := ⟨fun _ => .specification, code, message⟩

end VariableError

variable {α : Type}

namespace VariableInfo

/-- What is known of one part. -/
def get? (info : VariableInfo α) : BoundSlot → Option α
  | .lower => info.lower
  | .upper => info.upper
  | .fixed => info.fixed

/-- Puts a value into one part. -/
def put (info : VariableInfo α) (slot : BoundSlot) (value : α) : VariableInfo α :=
  match slot with
  | .lower => { info with lower := some value }
  | .upper => { info with upper := some value }
  | .fixed => { info with fixed := some value }

variable [Coefficient α]

/-- Gives one part its value, which has to be a number, unless it has one already. -/
def set (info : VariableInfo α) (slot : BoundSlot) (value : α) :
    Except VariableError (VariableInfo α) :=
  if Coefficient.isNaN value then .error .notANumber
  else if (info.get? slot).isSome then .error (.twice slot)
  else .ok (info.put slot value)

/-- Gives a lower and then an upper bound. -/
def setRange (info : VariableInfo α) (lower upper : α) : Except VariableError (VariableInfo α) := do
  (← info.set .lower lower).set .upper upper

/-- Takes one bound into account. -/
def apply (info : VariableInfo α) : VariableBound α → Except VariableError (VariableInfo α)
  | .oneSided op value variableOnLeft =>
    match if variableOnLeft then op else op.flip with
    | .le => info.set .upper value
    | .ge => info.set .lower value
    | .eq => info.set .fixed value
    | op => .error (.unrecognized op)
  | .ranged lb op₁ op₂ ub =>
    match op₁, op₂ with
    | .le, .le => info.setRange lb ub
    | .ge, .ge => info.setRange ub lb
    | _, _ => .error (.rangedOperators op₁ op₂)
  | .membership (.lessThan upper) => info.set .upper upper
  | .membership (.greaterThan lower) => info.set .lower lower
  | .membership (.equalTo value) => info.set .fixed value
  | .membership (.interval lower upper) => info.setRange lower upper
  | .membership .integer => .ok { info with integer := true }
  | .membership .zeroOne => .ok { info with binary := true }

/-- The information, unless it contradicts itself. -/
def checked (info : VariableInfo α) : Except VariableError (VariableInfo α) :=
  if info.fixed.isSome && (info.lower.isSome || info.upper.isSome) then .error .fixedAndBounded
  else if info.integer && info.binary then .error .integerAndBinary
  else .ok info

end VariableInfo

namespace VariableDecl

/-- The declaration that says nothing. -/
def free : VariableDecl α := ⟨[], false, false, none⟩

variable [Coefficient α]

/-- What a declaration says, its bounds taken in order. -/
def info (d : VariableDecl α) : Except VariableError (VariableInfo α) := do
  let start : VariableInfo α := ⟨none, none, none, d.integer, d.binary, d.start⟩
  (← d.bounds.foldlM VariableInfo.apply start).checked

/-- What a declaration says, with the label on what is wrong with it. -/
def resolve (l : Label) (d : VariableDecl α) : Except Error (VariableInfo α) :=
  d.info.mapError l.report

end VariableDecl

end AlgebraicModel
