/-!
# Sixty-four-bit integers

Integer index values are signed words of sixty-four bits. Arithmetic on them is done on the exact
integers; `Word.ofInt?` brings a result back when it fits and refuses it otherwise, so nothing
wraps.
-/

set_option autoImplicit false

namespace AlgebraicModel.Word

-- Powers of numbers are those of core, whichever other instances are in scope.
attribute [local instance (high)] instPowNat

/-- The word equal to an integer, if the integer is in range. -/
def ofInt? (n : Int) : Option Int64 :=
  if -2 ^ (63 : Nat) ≤ n ∧ n < 2 ^ (63 : Nat) then some (Int64.ofInt n) else none

/-- The integers from `lo` to `hi`, both included, as words. -/
def interval (lo hi : Int64) : List Int64 :=
  (List.range (hi.toInt + 1 - lo.toInt).toNat).map fun (k : Nat) => Int64.ofInt (lo.toInt + k)

theorem ofInt?_toInt (w : Int64) : ofInt? w.toInt = some w := by
  have h₁ := w.le_toInt
  have h₂ := w.toInt_lt
  simp only [ofInt?, Int64.ofInt_toInt]
  rw [if_pos]
  omega

theorem toInt_of_ofInt? {n : Int} {w : Int64} (h : ofInt? n = some w) : w.toInt = n := by
  unfold ofInt? at h
  split at h
  · cases h
    exact Int64.toInt_ofInt_of_le (by omega) (by omega)
  · cases h

/-- An integer is a word exactly when the word has its value. -/
theorem ofInt?_eq_some_iff {n : Int} {w : Int64} : ofInt? n = some w ↔ w.toInt = n :=
  ⟨toInt_of_ofInt?, fun h => h ▸ ofInt?_toInt w⟩

theorem ofInt?_eq_none_iff {n : Int} :
    ofInt? n = none ↔ n < -2 ^ (63 : Nat) ∨ 2 ^ (63 : Nat) ≤ n := by
  unfold ofInt?
  split <;> simp <;> omega

example : interval 3 5 = [3, 4, 5] ∧ interval 5 3 = [] := by decide

end AlgebraicModel.Word
