/-!
# Diagnostics

An error has a broad kind, a code that says what went wrong, and optional details for a reader. Each
stage of compilation has its own type of causes; the class `Cause` gives the kind, the code and the
wording of a cause, so that the texts of a stage stand in one place.

A label names the declaration that is being compiled. `Label.error` writes a message that opens with
the label, and `Label.attach` adds the label to an error that was raised elsewhere, unless the error
carries a label already.
-/

set_option autoImplicit false

namespace AlgebraicModel

/-- The broad kind of an error. -/
inductive ErrorKind where
  /-- A malformed declaration. -/
  | specification
  /-- A second element for a key that is taken. -/
  | duplicateKey
  /-- No way to build a constraint from a function and a set. -/
  | dispatch
  /-- A refusal by the model, or by the caller's own description of an element. -/
  | downstream
deriving DecidableEq, Repr

/-- What went wrong. -/
inductive ErrorCode where
  | noError | generic | unsupportedContainer | conditionalIndexing | dependentIndexSets
  | notOneBasedRange | mismatchedDimensions | notSquare | expectedSet | expectedScalar
  | expectedBool | unknownIdentifier | unknownBuiltin | badBuiltinArgs | divisionByZero
  | integerOverflow | repeatedIndex | unrecognizedRelation | badRangedOperators | unexpectedVector
  | twoSidedQuadratic | noBuilder | badVariableBounds | foreignVariable | duplicateName | modelError
deriving DecidableEq, Repr

namespace ErrorKind

/-- The heading under which an error of this kind is shown. -/
def heading : ErrorKind → String
  | specification => "SpecificationError"
  | duplicateKey => "DuplicateKeyError"
  | dispatch => "BuilderDispatchError"
  | downstream => "DownstreamError"

end ErrorKind

namespace ErrorCode

/-- Every code. -/
def all : List ErrorCode :=
  [noError, generic, unsupportedContainer, conditionalIndexing, dependentIndexSets,
   notOneBasedRange, mismatchedDimensions, notSquare, expectedSet, expectedScalar,
   expectedBool, unknownIdentifier, unknownBuiltin, badBuiltinArgs, divisionByZero,
   integerOverflow, repeatedIndex, unrecognizedRelation, badRangedOperators, unexpectedVector,
   twoSidedQuadratic, noBuilder, badVariableBounds, foreignVariable, duplicateName, modelError]

/-- The code as it is shown. -/
def text : ErrorCode → String
  | noError => "no_error"
  | generic => "generic"
  | unsupportedContainer => "unsupported_container"
  | conditionalIndexing => "conditional_indexing"
  | dependentIndexSets => "dependent_index_sets"
  | notOneBasedRange => "not_one_based_range"
  | mismatchedDimensions => "mismatched_dimensions"
  | notSquare => "not_square"
  | expectedSet => "expected_set"
  | expectedScalar => "expected_scalar"
  | expectedBool => "expected_bool"
  | unknownIdentifier => "unknown_identifier"
  | unknownBuiltin => "unknown_builtin"
  | badBuiltinArgs => "bad_builtin_args"
  | divisionByZero => "division_by_zero"
  | integerOverflow => "integer_overflow"
  | repeatedIndex => "repeated_index"
  | unrecognizedRelation => "unrecognized_relation"
  | badRangedOperators => "bad_ranged_operators"
  | unexpectedVector => "unexpected_vector"
  | twoSidedQuadratic => "two_sided_quadratic"
  | noBuilder => "no_builder"
  | badVariableBounds => "bad_variable_bounds"
  | foreignVariable => "foreign_variable"
  | duplicateName => "duplicate_name"
  | modelError => "model_error"

end ErrorCode

/-- A failure, with details for a reader when there are any. -/
structure Error where
  kind : ErrorKind
  code : ErrorCode
  details : Option String
deriving DecidableEq, Repr

/-- The error as it is shown: the heading, and in braces the code and the details. -/
def Error.text (e : Error) : String :=
  match e.details with
  | some d => e.kind.heading ++ "\x7b" ++ e.code.text ++ ": " ++ d ++ "\x7d"
  | none => e.kind.heading ++ "\x7b" ++ e.code.text ++ "\x7d"

/-- The causes of failure of one stage, with what a reader is told about each. -/
class Cause (φ : Type) where
  kind : φ → ErrorKind
  code : φ → ErrorCode
  message : φ → String

/-- The error of a cause, without a label. -/
def Error.ofCause {φ : Type} [Cause φ] (c : φ) : Error :=
  ⟨Cause.kind c, Cause.code c, some (Cause.message c)⟩

/-- The name of the declaration that is being compiled. -/
structure Label where
  text : String
deriving DecidableEq, Repr

namespace Label

/-- How details begin that carry a label. -/
def opening : String := "In `"

/-- The label as it stands at the front of details. -/
def front (l : Label) : String := opening ++ l.text ++ "`"

/-- Whether details carry a label. -/
def isLabelled (details : String) : Bool := opening.toList.isPrefixOf details.toList

/-- An error whose message opens with the label. -/
def error (l : Label) (kind : ErrorKind) (code : ErrorCode) (message : String) : Error :=
  ⟨kind, code, some (l.front ++ ": " ++ message)⟩

/-- The labelled error of a cause. -/
def report {φ : Type} [Cause φ] (l : Label) (c : φ) : Error :=
  l.error (Cause.kind c) (Cause.code c) (Cause.message c)

/-- The error for an element that occurs twice. -/
def repeatedIndex (l : Label) (element : String) : Error :=
  l.error .duplicateKey .repeatedIndex
    ("repeated index " ++ element ++ "; index values must be unique")

/-- The error with the label at the front of its details, or unchanged if a label stands there. -/
def attach (l : Label) (e : Error) : Error :=
  match e.details with
  | some d => if isLabelled d then e else ⟨e.kind, e.code, some (l.front ++ ": " ++ d)⟩
  | none => ⟨e.kind, e.code, some l.front⟩

@[simp] theorem kind_attach (l : Label) (e : Error) : (l.attach e).kind = e.kind := by
  unfold attach; split <;> (try split) <;> rfl

@[simp] theorem code_attach (l : Label) (e : Error) : (l.attach e).code = e.code := by
  unfold attach; split <;> (try split) <;> rfl

end Label

end AlgebraicModel
