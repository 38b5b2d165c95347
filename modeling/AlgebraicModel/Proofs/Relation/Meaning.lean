import AlgebraicModel.Constraint.Basic
import AlgebraicModel.Proofs.Function.Value
import AlgebraicModel.Relation.Basic
import Mathlib.Algebra.Order.Field.Basic

/-!
# What relations and constraints mean

Over an ordered field, an assignment makes a relation true or false. A comparison holds of the
values of its sides; under a broadcast it holds element by element, a side that is no array serving
every element (`Function.Compares`). Membership means that the value lies in the set. A relation in
canonical form and a finished constraint are read in the same terms, so that the stages of
compilation can be compared (`Relation.Holds`, `CanonicalForm.Holds`, `Constraint.Holds`).
-/

set_option autoImplicit false

namespace AlgebraicModel

variable {α : Type} [Field α] [LinearOrder α]

/-- The comparison of two numbers. -/
def Comparison.Holds : Comparison → α → α → Prop
  | le, a, b => a ≤ b
  | ge, a, b => b ≤ a
  | eq, a, b => a = b
  | lt, a, b => a < b
  | gt, a, b => b < a
  | ne, a, b => a ≠ b

/-! ## Sets -/

/-- The numbers of a set. -/
def ScalarSet.Contains : ScalarSet α → α → Prop
  | lessThan upper, y => y ≤ upper
  | greaterThan lower, y => lower ≤ y
  | equalTo value, y => y = value
  | interval lower upper, y => lower ≤ y ∧ y ≤ upper
  | integer, y => ∃ n : ℤ, y = n
  | zeroOne, y => y = 0 ∨ y = 1

/-- The entry of row `i` and column `j` of the symmetric matrix whose upper triangle is listed
column by column. -/
def triangleEntry (ys : List α) (i j : Nat) : α :=
  ys.getD (max i j * (max i j + 1) / 2 + min i j) 0

/-- The length of the vectors of a set, whether it is a word or not. -/
def VectorSet.components : VectorSet → Nat
  | nonnegatives n | nonpositives n | zeros n | secondOrderCone n => n
  | psdTriangle side => side * (side + 1) / 2

/-- The vectors of a set. -/
def VectorSet.Contains (s : VectorSet) (ys : List α) : Prop :=
  ys.length = s.components ∧
    match s with
    | nonnegatives _ => ∀ y ∈ ys, 0 ≤ y
    | nonpositives _ => ∀ y ∈ ys, y ≤ 0
    | zeros _ => ∀ y ∈ ys, y = 0
    | secondOrderCone _ => 0 ≤ ys.headD 0 ∧ (ys.tail.map (· ^ 2)).sum ≤ ys.headD 0 ^ 2
    | psdTriangle side => ∀ z : Nat → α, 0 ≤ ((List.range side).map fun i =>
        ((List.range side).map fun j => triangleEntry ys i j * z i * z j).sum).sum

theorem ScalarSet.contains_shift [IsStrictOrderedRing α] {s : ScalarSet α}
    (hs : s.isIntegrality = false) (c y : α) : (s.shift c).Contains y ↔ s.Contains (y + c) := by
  cases s with
  | lessThan upper => exact le_sub_iff_add_le
  | greaterThan lower => exact sub_le_iff_le_add
  | equalTo value => exact eq_sub_iff_add_eq
  | interval lower upper => exact and_congr sub_le_iff_le_add le_sub_iff_add_le
  | integer => cases hs
  | zeroOne => cases hs

/-- A difference lies in the set around zero of a comparison exactly when the comparison holds. -/
theorem Comparison.contains_zeroSet [IsStrictOrderedRing α] {op : Comparison} {s : ScalarSet α}
    (hs : op.zeroSet? = some s) (a b : α) : s.Contains (a - b) ↔ op.Holds a b := by
  cases op with
  | le =>
    cases hs
    exact sub_nonpos
  | ge =>
    cases hs
    exact sub_nonneg
  | eq =>
    cases hs
    exact sub_eq_zero
  | lt => cases hs
  | gt => cases hs
  | ne => cases hs

omit [Field α] in
theorem Comparison.holds_flip (op : Comparison) (a b : α) : op.flip.Holds b a ↔ op.Holds a b := by
  cases op with
  | eq => exact eq_comm
  | ne => exact ne_comm
  | _ => exact Iff.rfl

/-! ## Functions in sets and functions compared -/

namespace Function

variable (ρ : Assignment α)

/-- The value of the function lies in the set; under a broadcast, that of every element. -/
inductive In (s : ScalarSet α) : Bool → Function α → Prop
  | scalar {broadcast : Bool} {f : Function α} {y : α} :
      f.value? ρ = some y → s.Contains y → In s broadcast f
  | array {fs : List (Function α)} : (∀ f ∈ fs, In s true f) → In s true (.array fs)

/-- The values of the elements make up a vector of the set. -/
def InVector (s : VectorSet) (f : Function α) : Prop :=
  ∃ fs ys, f = array fs ∧ fs.mapM (value? ρ) = some ys ∧ s.Contains ys

/-- The function lies in the set; under a broadcast, every element of it. -/
def InSet : ConstraintSet α → Bool → Function α → Prop
  | .scalar s, broadcast, f => f.In ρ s broadcast
  | .vector s, false, f => f.InVector ρ s
  | .vector s, true, f => ∃ fs, f = array fs ∧ ∀ e ∈ fs, e.InVector ρ s

/-- The values of the two sides compare; under a broadcast, those of the elements in pairs. A side
that is no array serves every element of the other. -/
inductive Compares (op : Comparison) : Bool → Function α → Function α → Prop
  | scalars {broadcast : Bool} {l r : Function α} {a b : α} :
      l.value? ρ = some a → r.value? ρ = some b → op.Holds a b → Compares op broadcast l r
  | arrays {ls rs : List (Function α)} :
      ls.length = rs.length → (∀ p ∈ ls.zip rs, Compares op true p.1 p.2) →
        Compares op true (.array ls) (.array rs)
  | arrayWithScalar {ls : List (Function α)} {r : Function α} :
      r.isArray = false → (∀ l ∈ ls, Compares op true l r) → Compares op true (.array ls) r
  | scalarWithArray {l : Function α} {rs : List (Function α)} :
      l.isArray = false → (∀ r ∈ rs, Compares op true l r) → Compares op true l (.array rs)

/-- The value lies between the two bounds; under a broadcast, that of every element between the
bounds of the element. -/
def Between (lb ub : Bound α) (broadcast : Bool) : Function α → Prop
  | array fs => broadcast = true ∧ ∀ p ∈ fs.zipIdx, ∃ lower upper,
      lb.at? p.2 = some lower ∧ ub.at? p.2 = some upper ∧ p.1.In ρ (.interval lower upper) true
  | f => ∃ lower upper,
      lb.at? 0 = some lower ∧ ub.at? 0 = some upper ∧ f.In ρ (.interval lower upper) broadcast

section Inversion

variable {ρ : Assignment α} {s : ScalarSet α} {op : Comparison} {broadcast : Bool}

theorem in_scalar_iff {f : Function α} {y : α} (hf : f.value? ρ = some y) :
    f.In ρ s broadcast ↔ s.Contains y := by
  constructor
  · intro h
    cases h with
    | scalar hy hs =>
      rw [hf] at hy
      cases hy
      exact hs
    | array _ => cases hf
  · exact In.scalar hf

theorem inVector_array_iff {s : VectorSet} {fs : List (Function α)} {ys : List α}
    (hfs : fs.mapM (value? ρ) = some ys) : (array fs).InVector ρ s ↔ s.Contains ys := by
  constructor
  · rintro ⟨fs', ys', hfs', hys', h⟩
    cases hfs'
    rw [hfs] at hys'
    cases hys'
    exact h
  · intro h
    exact ⟨fs, ys, rfl, hfs, h⟩

theorem in_array_iff {fs : List (Function α)} :
    (array fs).In ρ s broadcast ↔ broadcast = true ∧ ∀ f ∈ fs, f.In ρ s true := by
  constructor
  · intro h
    cases h with
    | scalar hy _ => cases hy
    | array h => exact ⟨rfl, h⟩
  · rintro ⟨rfl, h⟩
    exact In.array h

theorem compares_scalars_iff {l r : Function α} {a b : α} (hl : l.value? ρ = some a)
    (hr : r.value? ρ = some b) : l.Compares ρ op broadcast r ↔ op.Holds a b := by
  constructor
  · intro h
    cases h with
    | scalars ha hb h =>
      rw [hl] at ha
      rw [hr] at hb
      cases ha
      cases hb
      exact h
    | arrays _ _ => cases hl
    | arrayWithScalar _ _ => cases hl
    | scalarWithArray _ _ => cases hr
  · exact Compares.scalars hl hr

theorem compares_arrays_iff {ls rs : List (Function α)} :
    (array ls).Compares ρ op broadcast (array rs) ↔
      broadcast = true ∧ ls.length = rs.length ∧ ∀ p ∈ ls.zip rs, p.1.Compares ρ op true p.2 := by
  constructor
  · intro h
    cases h with
    | scalars ha _ _ => cases ha
    | arrays hlen h => exact ⟨rfl, hlen, h⟩
    | arrayWithScalar hr _ => cases hr
    | scalarWithArray hl _ => cases hl
  · rintro ⟨rfl, hlen, h⟩
    exact Compares.arrays hlen h

theorem compares_arrayWithScalar_iff {ls : List (Function α)} {r : Function α}
    (hr : r.isArray = false) :
    (array ls).Compares ρ op broadcast r ↔
      broadcast = true ∧ ∀ l ∈ ls, l.Compares ρ op true r := by
  constructor
  · intro h
    cases h with
    | scalars ha _ _ => cases ha
    | arrays _ _ => cases hr
    | arrayWithScalar _ h => exact ⟨rfl, h⟩
    | scalarWithArray _ _ => cases hr
  · rintro ⟨rfl, h⟩
    exact Compares.arrayWithScalar hr h

theorem compares_scalarWithArray_iff {l : Function α} {rs : List (Function α)}
    (hl : l.isArray = false) :
    l.Compares ρ op broadcast (array rs) ↔
      broadcast = true ∧ ∀ r ∈ rs, l.Compares ρ op true r := by
  constructor
  · intro h
    cases h with
    | scalars _ hb _ => cases hb
    | arrays _ _ => cases hl
    | arrayWithScalar _ _ => cases hl
    | scalarWithArray _ h => exact ⟨rfl, h⟩
  · rintro ⟨rfl, h⟩
    exact Compares.scalarWithArray hl h

end Inversion

end Function

/-! ## Relations, canonical forms and constraints -/

/-- Whether the relation holds under an assignment. -/
def Relation.Holds (ρ : Assignment α) : Relation α → Prop
  | oneSided lhs op rhs broadcast => lhs.Compares ρ op broadcast rhs
  | ranged lb op₁ mid op₂ ub broadcast =>
    lb.Compares ρ op₁ broadcast mid ∧ mid.Compares ρ op₂ broadcast ub
  | membership f s broadcast => f.InSet ρ s broadcast

/-- Whether the form holds under an assignment. -/
def CanonicalForm.Holds (ρ : Assignment α) : CanonicalForm α → Prop
  | membership f s broadcast => f.InSet ρ s broadcast
  | ranged lb f ub broadcast => f.Between ρ lb ub broadcast

/-- Whether the constraint holds under an assignment. -/
def Constraint.Holds (ρ : Assignment α) (c : Constraint α) : Prop :=
  match c.func, c.set with
  | .singleVariable v, .scalar s => s.Contains (ρ v)
  | .affine f, .scalar s => s.Contains (f.value ρ)
  | .quadratic f, .scalar s => s.Contains (f.value ρ)
  | .vectorOfVariables vs, .vector s => s.Contains (vs.map ρ)
  | .vectorAffine fs, .vector s => s.Contains (fs.map (·.value ρ))
  | _, _ => False

/-- The additive constant of the function, zero for variables and vectors. -/
def ConstraintFunction.additive : ConstraintFunction α → α
  | affine f => f.constant
  | quadratic f => f.constant
  | _ => 0

end AlgebraicModel
