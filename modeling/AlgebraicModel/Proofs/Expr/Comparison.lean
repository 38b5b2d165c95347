import AlgebraicModel.Expr.Eval
import AlgebraicModel.Proofs.Binary64.Rounding

/-!
# Comparisons of integers

Two integers are tested for equality as they are, but put in order by the binary64 numbers nearest
to them (`Expr.eval_order`). Where rounding keeps two integers apart, as it does up to `2 ^ 53`,
nothing is to be seen of this: the six comparisons are those of the integers, and they agree with
the order of index values. Where it makes them one, the two are unequal and yet neither is less
(`Expr.comparisons_exact_iff`).
-/

set_option autoImplicit false

namespace AlgebraicModel

open Binary64 (ofInt KeptApart)

namespace BinaryOp

/-- Whether the operator puts two values in order. -/
def isOrder : BinaryOp → Bool
  | gt | gte | lt | lte => true
  | _ => false

/-- Whether the operator compares two values. -/
def isComparison (op : BinaryOp) : Bool := op == eq || op == neq || op.isOrder

/-- What a comparison says of two integers. -/
def compares : BinaryOp → Int → Int → Bool
  | eq, m, n => m = n
  | neq, m, n => m ≠ n
  | gt, m, n => n < m
  | gte, m, n => n ≤ m
  | lt, m, n => m < n
  | lte, m, n => m ≤ n
  | _, _, _ => false

/-- The comparison that is true of two values in a given order, of less, equal and greater. -/
def ofOrdering : Ordering → BinaryOp
  | .lt => lt
  | .eq => eq
  | .gt => gt

theorem ofOrdering_mem (o : Ordering) : ofOrdering o ∈ [lt, eq, gt] := by
  cases o <;> decide

/-- An order of two integers makes a comparison true exactly where the comparison holds. -/
theorem holds_compare {op : BinaryOp} (hop : op.isOrder = true) (m n : Int) :
    Expr.holds op (compare m n) = op.compares m n := by
  rw [Bool.eq_iff_iff]
  cases op with
  | gt => rw [Expr.holds, compares, beq_iff_eq, decide_eq_true_eq, Int.compare_eq_gt]
  | gte =>
    rw [Expr.holds, compares, bne_iff_ne, decide_eq_true_eq, Ne, Int.compare_eq_lt, Int.not_lt]
  | lt => rw [Expr.holds, compares, beq_iff_eq, decide_eq_true_eq, Int.compare_eq_lt]
  | lte =>
    simp only [Expr.holds, compares, bne_iff_ne, decide_eq_true_eq, Ne, Int.compare_eq_gt,
      Int.not_lt]
  | _ => cases hop

end BinaryOp

namespace Expr

section Evaluation

variable [Closeness] {b : Bindings} {l r : Expr} {m n : Int64} {op : BinaryOp}

theorem eval_equality (hl : l.eval b = .ok (.scalar (.int m)))
    (hr : r.eval b = .ok (.scalar (.int n))) (hop : op = .eq ∨ op = .neq) :
    (binary op l r).eval b = .ok (.bool (op.compares m.toInt n.toInt)) := by
  have hequal : (IndexValue.int m).equal (.int n) = decide (m.toInt = n.toInt) := by
    rw [Bool.eq_iff_iff]
    simp [IndexValue.equal, Int64.toInt_inj]
  rcases hop with rfl | rfl
  · rw [eval, hl, hr]
    change Except.ok (Value.bool ((IndexValue.int m).equal (.int n) == true)) = _
    rw [hequal, beq_true]
    rfl
  · rw [eval, hl, hr]
    change Except.ok (Value.bool ((IndexValue.int m).equal (.int n) == false)) = _
    rw [hequal, beq_false, ← decide_not]
    rfl

/-- The order of two integers is that of the numbers nearest to them. -/
theorem eval_order (hl : l.eval b = .ok (.scalar (.int m)))
    (hr : r.eval b = .ok (.scalar (.int n))) (hop : op.isOrder = true) :
    (binary op l r).eval b =
      .ok (.bool (holds op (if ofInt m.toInt = ofInt n.toInt then .eq
        else compare m.toInt n.toInt))) := by
  rw [← Binary64.totalCompare_ofInt]
  cases op with
  | gt | gte | lt | lte =>
    rw [eval, hl, hr]
    rfl
  | _ => cases hop

theorem eval_comparison_of_keptApart (hl : l.eval b = .ok (.scalar (.int m)))
    (hr : r.eval b = .ok (.scalar (.int n))) (h : KeptApart m.toInt n.toInt)
    (hop : op.isComparison = true) :
    (binary op l r).eval b = .ok (.bool (op.compares m.toInt n.toInt)) := by
  simp only [BinaryOp.isComparison, Bool.or_eq_true, beq_iff_eq] at hop
  rcases hop with hop | hop
  · exact eval_equality hl hr hop
  · rw [eval_order hl hr hop, ← BinaryOp.holds_compare hop]
    split <;> rename_i hrounded
    · rw [Int.compare_eq_eq.mpr (h hrounded)]
    · rfl

/-- Of two integers that rounding makes one, neither is less, although they are unequal. -/
theorem eval_comparison_of_not_keptApart (hl : l.eval b = .ok (.scalar (.int m)))
    (hr : r.eval b = .ok (.scalar (.int n))) (h : ¬ KeptApart m.toInt n.toInt)
    (hop : op.isComparison = true) :
    (binary op l r).eval b = .ok (.bool (decide (op ∈ [.neq, .gte, .lte]))) := by
  obtain ⟨hrounded, hne⟩ := Classical.not_imp.mp h
  simp only [BinaryOp.isComparison, Bool.or_eq_true, beq_iff_eq] at hop
  rcases hop with hop | hop
  · rw [eval_equality hl hr hop]
    rcases hop with rfl | rfl
    · simp [BinaryOp.compares, hne]
    · simp [BinaryOp.compares, hne]
  · rw [eval_order hl hr hop, if_pos hrounded]
    cases op with
    | gt | gte | lt | lte => rfl
    | _ => cases hop

/-- Of less, equal and greater the one is true that the order of index values says. -/
theorem eval_eq_true_iff_of_keptApart (hl : l.eval b = .ok (.scalar (.int m)))
    (hr : r.eval b = .ok (.scalar (.int n))) (h : KeptApart m.toInt n.toInt)
    (hop : op ∈ [.lt, .eq, .gt]) :
    (binary op l r).eval b = .ok (.bool true) ↔
      op = .ofOrdering (IndexValue.compare (.int m) (.int n)) := by
  have heval {op : BinaryOp} (hop : op.isComparison = true) :
      (binary op l r).eval b = .ok (.bool true) ↔ op.compares m.toInt n.toInt = true := by
    rw [eval_comparison_of_keptApart hl hr h hop]
    simp
  have hcompare : IndexValue.compare (.int m) (.int n) = compare m.toInt n.toInt := rfl
  simp only [List.mem_cons, List.not_mem_nil, or_false] at hop
  rw [hcompare]
  rcases hop with rfl | rfl | rfl
  · rw [heval rfl, BinaryOp.compares, decide_eq_true_eq, ← Int.compare_eq_lt]
    cases compare m.toInt n.toInt <;> simp [BinaryOp.ofOrdering]
  · rw [heval rfl, BinaryOp.compares, decide_eq_true_eq, ← Int.compare_eq_eq]
    cases compare m.toInt n.toInt <;> simp [BinaryOp.ofOrdering]
  · rw [heval rfl, BinaryOp.compares, decide_eq_true_eq, ← Int.compare_eq_gt]
    cases compare m.toInt n.toInt <;> simp [BinaryOp.ofOrdering]

/-- The six comparisons of two integers are exact exactly where rounding keeps the two apart. There,
one of less, equal and greater is true, the one that the order of index values says. Elsewhere the
integers are unequal, at least and at most each other. -/
theorem comparisons_exact_iff (hl : l.eval b = .ok (.scalar (.int m)))
    (hr : r.eval b = .ok (.scalar (.int n))) :
    ((∀ op : BinaryOp, op.isComparison = true →
        (binary op l r).eval b = .ok (.bool (op.compares m.toInt n.toInt))) ↔
      KeptApart m.toInt n.toInt) ∧
    (KeptApart m.toInt n.toInt →
      (∃! op, op ∈ [.lt, .eq, .gt] ∧ (binary op l r).eval b = .ok (.bool true)) ∧
      ∀ op ∈ [BinaryOp.lt, .eq, .gt], (binary op l r).eval b = .ok (.bool true) ↔
        op = .ofOrdering (IndexValue.compare (.int m) (.int n))) ∧
    (¬ KeptApart m.toInt n.toInt → ∀ op : BinaryOp, op.isComparison = true →
      (binary op l r).eval b = .ok (.bool (decide (op ∈ [.neq, .gte, .lte])))) := by
  refine ⟨⟨fun h => ?_, fun h op hop => eval_comparison_of_keptApart hl hr h hop⟩,
    fun h => ⟨?_, ?_⟩, fun h op hop => eval_comparison_of_not_keptApart hl hr h hop⟩
  · -- two integers made one are at most each other, which they are not exactly
    by_contra hmerged
    have hle := (h .lte rfl).symm.trans (eval_comparison_of_not_keptApart hl hr hmerged rfl)
    have hge := (h .gte rfl).symm.trans (eval_comparison_of_not_keptApart hl hr hmerged rfl)
    simp [BinaryOp.compares] at hle hge
    exact hmerged fun _ => Int.le_antisymm hle hge
  · have hmem := BinaryOp.ofOrdering_mem (IndexValue.compare (.int m) (.int n))
    refine ⟨_, ⟨hmem, (eval_eq_true_iff_of_keptApart hl hr h hmem).mpr rfl⟩, ?_⟩
    rintro op ⟨hop, htrue⟩
    exact (eval_eq_true_iff_of_keptApart hl hr h hop).mp htrue
  · intro op hop
    exact eval_eq_true_iff_of_keptApart hl hr h hop

end Evaluation

/-- Of one and two, one is less. -/
theorem comparisons_exact_of_small :
    (binary .lt (const (.int 1)) (const (.int 2))).eval (.ofParams .empty) = .ok (.bool true) := by
  have hone : (const (.int 1)).eval (.ofParams .empty) = .ok (.scalar (.int 1)) := by rw [eval]
  have htwo : (const (.int 2)).eval (.ofParams .empty) = .ok (.scalar (.int 2)) := by rw [eval]
  apply (comparisons_exact_iff hone htwo).1.mpr _ .lt rfl
  exact Binary64.keptApart_of_le (by decide) (by decide)

/-- The first two integers that rounding makes one are unequal, and yet the lesser is not less. It is
less in the order of index values. -/
theorem not_less_of_merged :
    let l := const (.int 9007199254740992)
    let r := const (.int 9007199254740993)
    (binary .lt l r).eval (.ofParams .empty) = .ok (.bool false) ∧
      (binary .eq l r).eval (.ofParams .empty) = .ok (.bool false) ∧
      (binary .gt l r).eval (.ofParams .empty) = .ok (.bool false) ∧
      (binary .gte l r).eval (.ofParams .empty) = .ok (.bool true) ∧
      IndexValue.compare (.int 9007199254740992) (.int 9007199254740993) = .lt := by
  intro l r
  have hl : l.eval (.ofParams .empty) = .ok (.scalar (.int 9007199254740992)) := by rw [eval]
  have hr : r.eval (.ofParams .empty) = .ok (.scalar (.int 9007199254740993)) := by rw [eval]
  have hmerged : ¬ KeptApart (9007199254740992 : Int64).toInt (9007199254740993 : Int64).toInt :=
    Binary64.not_keptApart
  exact ⟨eval_comparison_of_not_keptApart hl hr hmerged rfl,
    eval_comparison_of_not_keptApart hl hr hmerged rfl,
    eval_comparison_of_not_keptApart hl hr hmerged rfl,
    eval_comparison_of_not_keptApart hl hr hmerged rfl, by decide⟩

end Expr

end AlgebraicModel
