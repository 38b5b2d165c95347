import AlgebraicModel.Relation.Basic

/-!
# Canonicalization

`Relation.canonicalize` brings a relation into canonical form. A comparison becomes membership of
the difference of its sides in a set around zero, a double comparison a function between two
constant bounds. In both the additive constant of a scalar function is taken over into the set or
the bounds (`relocate`); the elements of an array keep theirs until they are built one by one.
-/

set_option autoImplicit false

namespace AlgebraicModel

/-- Which end of a range a bound is. -/
inductive RangeEnd where
  | lower | upper
deriving DecidableEq, Repr

/-- The end as it is shown. -/
def RangeEnd.text : RangeEnd → String
  | lower => "lower"
  | upper => "upper"

/-- Why a relation has no canonical form. -/
inductive RelationError where
  /-- The operator describes no set. -/
  | unrecognized (op : Comparison)
  /-- Two arrays of different lengths are compared. -/
  | lengths (left right : Nat)
  /-- An array is compared with a scalar as a whole. -/
  | arrayWithScalar (length : Nat)
  | cannotSubtract
  /-- A bound of one element is not constant. -/
  | elementNotConstant (which : RangeEnd)
  /-- A bound is not constant. -/
  | notConstant (which : RangeEnd)
  /-- The two operators do not point the same way. -/
  | rangedOperators (op₁ op₂ : Comparison)
  /-- There are more or fewer bounds than elements. -/
  | boundLengths (bounds elements : Nat)
  /-- There are many bounds for one function. -/
  | arrayBounds

namespace RelationError

/-- The code of a failure. -/
def code : RelationError → ErrorCode
  | unrecognized _ => .unrecognizedRelation
  | lengths _ _ | arrayWithScalar _ | boundLengths _ _ | arrayBounds => .mismatchedDimensions
  | cannotSubtract => .generic
  | elementNotConstant _ | notConstant _ => .expectedScalar
  | rangedOperators _ _ => .badRangedOperators

/-- What a reader is told. -/
def message : RelationError → String
  | unrecognized op => "unrecognized relation `" ++ op.symbol ++ "`; expected <=, >= or =="
  | lengths left right =>
    "dimensions of the two sides do not match: " ++ toString left ++ " and " ++ toString right
  | arrayWithScalar length =>
    "cannot compare an array of length " ++ toString length ++
      " with a scalar; use the broadcast operator"
  | cannotSubtract => "unable to subtract the two sides of the relation"
  | elementNotConstant which =>
    "the " ++ which.text ++ " bound of a ranged constraint must be constant"
  | notConstant which =>
    "the " ++ which.text ++ " bound of a ranged constraint must be a constant number"
  | rangedOperators op₁ op₂ =>
    "unsupported ranged operators `" ++ op₁.symbol ++ "` and `" ++ op₂.symbol ++
      "`; both must be <= or both >="
  | boundLengths bounds elements =>
    "dimensions of the bounds and the function do not match: " ++ toString bounds ++ " and " ++
      toString elements
  | arrayBounds => "array bounds require an array-valued function"

instance : Cause RelationError := ⟨fun _ => .specification, code, message⟩

end RelationError

variable {α : Type} [Zero α] [One α] [Neg α] [Add α] [Sub α] [Mul α]

namespace Function

/-- The function without its additive constant. A constant leaves the affine function zero. -/
def withoutAdditive : Function α → Function α
  | constant _ => affine .zero
  | affine f => affine (f.setConstant 0)
  | quadratic f => quadratic { f with affine := f.affine.setConstant 0 }
  | f => f

/-- Takes the additive constant of a scalar function over into its set. Arrays and integrality sets
are left alone. -/
def relocate (f : Function α) (s : ScalarSet α) : Function α × ScalarSet α :=
  if f.isArray || s.isIntegrality then (f, s) else (f.withoutAdditive, s.shift f.additive)

/-- The difference of two functions that are no arrays. -/
def scalarMinus (l r : Function α) : Except RelationError (Function α) :=
  match l.minus? r with
  | some f => .ok f
  | none => .error .cannotSubtract

mutual

/-- A scalar function less each element of the right side. -/
def minusEach (l : Function α) : Function α → Except RelationError (Function α)
  | array rs => do return array (← minusAll l rs)
  | r => scalarMinus l r

/-- A scalar function less each function of a list. -/
def minusAll (l : Function α) : List (Function α) → Except RelationError (List (Function α))
  | [] => .ok []
  | r :: rs => do
    let f ← minusEach l r
    return f :: (← minusAll l rs)

end

mutual

/-- The left side less the right side, element by element where arrays are involved. A scalar side
serves every element of a broadcast. -/
def difference (broadcast : Bool) : Function α → Function α → Except RelationError (Function α)
  | array ls, array rs =>
    if ls.length = rs.length then do return array (← differences broadcast ls rs)
    else .error (.lengths ls.length rs.length)
  | array ls, r =>
    if broadcast then do return array (← eachMinus broadcast ls r)
    else .error (.arrayWithScalar ls.length)
  | l, array rs =>
    if broadcast then minusEach l (array rs) else .error (.arrayWithScalar rs.length)
  | l, r => scalarMinus l r

/-- The differences of the elements of two lists, in pairs. -/
def differences (broadcast : Bool) :
    List (Function α) → List (Function α) → Except RelationError (List (Function α))
  | l :: ls, r :: rs => do
    let f ← difference broadcast l r
    return f :: (← differences broadcast ls rs)
  | _, _ => .ok []

/-- Each function of a list less the right side. -/
def eachMinus (broadcast : Bool) :
    List (Function α) → Function α → Except RelationError (List (Function α))
  | [], _ => .ok []
  | l :: ls, r => do
    let f ← difference broadcast l r
    return f :: (← eachMinus broadcast ls r)

end

/-- The value of a constant. -/
def asConstant? : Function α → Option α
  | constant c => some c
  | _ => none

/-- The function as an end of a range. -/
def toBound (which : RangeEnd) (broadcast : Bool) : Function α → Except RelationError (Bound α)
  | constant c => .ok (.scalar c)
  | array elements =>
    if broadcast then
      match elements.mapM asConstant? with
      | some bs => .ok (.array bs)
      | none => .error (.elementNotConstant which)
    else .error (.notConstant which)
  | _ => .error (.notConstant which)

end Function

/-- Fails unless a bound has one value for all elements or as many as there are elements. -/
def Bound.checkLength (elements : Nat) (b : Bound α) : Except RelationError Unit :=
  match b.length? with
  | some n => if n = elements then .ok () else .error (.boundLengths n elements)
  | none => .ok ()

/-- Fails unless the two bounds fit the function. -/
def Function.checkBounds (f : Function α) (lb ub : Bound α) : Except RelationError Unit :=
  match f with
  | .array elements => do
    lb.checkLength elements.length
    ub.checkLength elements.length
  | _ =>
    if lb.length?.isSome || ub.length?.isSome then .error .arrayBounds else .ok ()

/-- The lower and the upper side of a double comparison. -/
def orientRange {β : Type} (op₁ op₂ : Comparison) (lb ub : β) : Option (β × β) :=
  match op₁, op₂ with
  | .le, .le => some (lb, ub)
  | .ge, .ge => some (ub, lb)
  | _, _ => none

namespace Relation

/-- The canonical form of a relation, or why it has none. -/
def canonicalForm : Relation α → Except RelationError (CanonicalForm α)
  | oneSided lhs op rhs broadcast => do
    match (op.zeroSet? : Option (ScalarSet α)) with
    | none => throw (.unrecognized op)
    | some s =>
      let (f, s) := (← Function.difference broadcast lhs rhs).relocate s
      return .membership f (.scalar s) broadcast
  | ranged lb op₁ mid op₂ ub broadcast => do
    match orientRange op₁ op₂ lb ub with
    | none => throw (.rangedOperators op₁ op₂)
    | some (lower, upper) =>
      let lower ← lower.toBound .lower broadcast
      let upper ← upper.toBound .upper broadcast
      mid.checkBounds lower upper
      let f := (mid.relocate (.interval 0 0)).1
      return .ranged (lower.shift mid.additive) f (upper.shift mid.additive) broadcast
  | membership f s broadcast => return .membership f s broadcast

/-- The canonical form of a relation, with the label on what is wrong with it. -/
def canonicalize (l : Label) (r : Relation α) : Except Error (CanonicalForm α) :=
  r.canonicalForm.mapError l.report

end Relation

end AlgebraicModel
