import AlgebraicModel.Function.Basic
import AlgebraicModel.Relation.Comparison

/-!
# Relations and their canonical form

A relation is what a modeller writes: one comparison, a double comparison around a function, or
membership in a set. A broadcast relation holds element by element. Its canonical form is membership
of a function in a set, or a function between two bounds.
-/

set_option autoImplicit false

namespace AlgebraicModel

/-- A relation between functions, as it is written. -/
inductive Relation (α : Type) where
  /-- `lhs op rhs`. -/
  | oneSided (lhs : Function α) (op : Comparison) (rhs : Function α) (broadcast : Bool)
  /-- `lb op₁ mid op₂ ub`. -/
  | ranged (lb : Function α) (op₁ : Comparison) (mid : Function α) (op₂ : Comparison)
      (ub : Function α) (broadcast : Bool)
  /-- `f` in `s`. -/
  | membership (f : Function α) (s : ConstraintSet α) (broadcast : Bool)

/-- One end of a range: a bound for every element, or one bound for each. -/
inductive Bound (α : Type) where
  | scalar (b : α)
  | array (bs : List α)
deriving DecidableEq

namespace Bound

variable {α : Type}

/-- The bound of element `i`. -/
def at? : Bound α → Nat → Option α
  | scalar b, _ => some b
  | array bs, i => bs[i]?

/-- The number of bounds, if there is one for each element. -/
def length? : Bound α → Option Nat
  | scalar _ => none
  | array bs => some bs.length

/-- Every bound less `c`. -/
def shift [Sub α] (c : α) : Bound α → Bound α
  | scalar b => scalar (b - c)
  | array bs => array (bs.map (· - c))

@[simp] theorem length?_shift [Sub α] (c : α) (b : Bound α) :
    (b.shift c).length? = b.length? := by
  cases b <;> simp [shift, length?]

end Bound

/-- A relation in canonical form. -/
inductive CanonicalForm (α : Type) where
  /-- `f` in `s`. -/
  | membership (f : Function α) (s : ConstraintSet α) (broadcast : Bool)
  /-- `f` between `lb` and `ub`. -/
  | ranged (lb : Bound α) (f : Function α) (ub : Bound α) (broadcast : Bool)

/-- Whether the form holds element by element. -/
def CanonicalForm.isBroadcast {α : Type} : CanonicalForm α → Bool
  | membership _ _ broadcast => broadcast
  | ranged _ _ _ broadcast => broadcast

end AlgebraicModel
