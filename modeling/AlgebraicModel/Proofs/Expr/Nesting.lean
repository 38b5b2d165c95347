import AlgebraicModel.Expr.Printer

/-!
# Operands of the same level

An operand is printed without parentheses below an operator of its own level, so `a - b - c` is how
both `(a - b) - c` and `a - (b - c)` are printed. `Expr.leftNested` regroups every chain of
operators of one level to the left: the right operand of an operator is then never an operator of
the same level (`isLeftNested_leftNested`). Printing does not show the difference
(`print_leftNested`), because regrouping keeps the level of an expression, so that it has
parentheses where it had them before (`needsParens_leftNested`).
-/

set_option autoImplicit false

namespace AlgebraicModel.Expr

/-! ## Properties of all parts -/

/-- The expressions of which an expression is made. -/
def operands : Expr → List Expr
  | const _ | var _ => []
  | range lo hi => [lo, hi]
  | collection elements => elements
  | app _ args => args
  | unary _ e => [e]
  | binary _ l r => [l, r]
  | ite c t f => [c, t, f]

/-- Induction in which a property passes from the operands of an expression to the expression. -/
@[elab_as_elim]
theorem operands_induction {motive : Expr → Prop}
    (step : ∀ e, (∀ x ∈ e.operands, motive x) → motive e) (e : Expr) : motive e := by
  refine @Expr.rec motive (fun es => ∀ x ∈ es, motive x)
    (fun v => step _ ?_) (fun n => step _ ?_) (fun lo hi hlo hhi => step _ ?_)
    (fun es hes => step _ hes) (fun f args hargs => step _ hargs) (fun op e he => step _ ?_)
    (fun op l r hl hr => step _ ?_) (fun c t f hc ht hf => step _ ?_) ?_ ?_ e
  all_goals simp_all [operands]

/-- The property holds of the expression and of every part of it. -/
inductive Everywhere (p : Expr → Prop) : Expr → Prop
  | node {e : Expr} (here : p e) (inside : ∀ x ∈ e.operands, Everywhere p x) : Everywhere p e

namespace Everywhere

variable {p q : Expr → Prop} {e : Expr}

theorem here (h : Everywhere p e) : p e := by
  cases h with
  | node here _ => exact here

theorem inside (h : Everywhere p e) {x : Expr} (hx : x ∈ e.operands) : Everywhere p x := by
  cases h with
  | node _ inside => exact inside x hx

theorem and (hp : Everywhere p e) (hq : Everywhere q e) : Everywhere (fun x => p x ∧ q x) e := by
  induction hp with
  | node here _ ih => exact .node ⟨here, hq.here⟩ fun x hx => ih x hx (hq.inside hx)

theorem mono (hp : Everywhere p e) (h : ∀ x, p x → q x) : Everywhere q e := by
  induction hp with
  | node here _ ih => exact .node (h _ here) ih

@[simp] theorem const_iff {v : IndexValue} : Everywhere p (const v) ↔ p (const v) :=
  ⟨here, fun h => .node h (by simp [operands])⟩

@[simp] theorem var_iff {n : Name} : Everywhere p (var n) ↔ p (var n) :=
  ⟨here, fun h => .node h (by simp [operands])⟩

@[simp] theorem binary_iff {op : BinaryOp} {l r : Expr} :
    Everywhere p (binary op l r) ↔ p (binary op l r) ∧ Everywhere p l ∧ Everywhere p r := by
  constructor
  · intro h
    exact ⟨h.here, h.inside (by simp [operands]), h.inside (by simp [operands])⟩
  · rintro ⟨h, hl, hr⟩
    exact .node h (by simp [operands, hl, hr])

end Everywhere

/-! ## Expressions of two operands -/

/-- What stands between two operands. -/
inductive Separator where
  | dots
  | op (o : BinaryOp)
deriving DecidableEq

/-- The expression of two operands with the separator between them. -/
def Separator.join : Separator → Expr → Expr → Expr
  | dots, l, r => range l r
  | op o, l, r => binary o l r

/-- The separator as it is printed. -/
def Separator.text : Separator → String
  | dots => ".."
  | op o => " " ++ o.symbol ++ " "

/-- Whether an expression stands in parentheses at the side of a separator. -/
def inParens (k : Separator) (x : Expr) : Bool := needsParens (k.join x x) x

/-- The text of an expression at the side of a separator. -/
def side (k : Separator) (x : Expr) : String := parenthesized (inParens k x) x.print

theorem needsParens_join (k : Separator) (l r x : Expr) :
    needsParens (k.join l r) x = inParens k x := by
  cases k <;> cases x <;> rfl

theorem needsParens_unary (op : UnaryOp) (e x : Expr) :
    needsParens (unary op e) x = needsParens (unary op x) x := by
  cases x <;> rfl

theorem print_join (k : Separator) (l r : Expr) :
    (k.join l r).print = side k l ++ k.text ++ side k r := by
  rw [side, side, ← needsParens_join k l r, ← needsParens_join k l r]
  cases k with
  | dots => rfl
  | op o => simp only [Separator.join, Separator.text, print, String.append_assoc]

theorem print_binary (op : BinaryOp) (l r : Expr) :
    (binary op l r).print = side (.op op) l ++ Separator.text (.op op) ++ side (.op op) r :=
  print_join (.op op) l r

theorem side_congr {op op' : BinaryOp} (h : op'.precedence = op.precedence) (x : Expr) :
    side (.op op') x = side (.op op) x := by
  have hparens : inParens (.op op') x = inParens (.op op) x := by
    cases x <;> simp [inParens, Separator.join, needsParens, h]
  rw [side, side, hparens]

/-- An operator of the same level or of one that binds more tightly has no parentheses. -/
theorem side_binary {op op' : BinaryOp} (h : op.precedence ≤ op'.precedence) (l r : Expr) :
    side (.op op) (binary op' l r) = (binary op' l r).print := by
  have hparens : inParens (.op op) (binary op' l r) = false := by
    simp [inParens, Separator.join, needsParens, h]
  rw [side, hparens]
  rfl

/-! ## Regrouping to the left -/

/-- The operator is not one of the same level as the operator at its right. -/
def IsLeftNestedNode : Expr → Prop
  | binary op _ (binary op' _ _) => op'.precedence ≠ op.precedence
  | _ => True

/-- No operator has an operator of the same level as its right operand. -/
abbrev IsLeftNested : Expr → Prop := Everywhere IsLeftNestedNode

/-- The operator applied to both operands, where operators of the same level at the head of the
right one take it as a part of their left operand. -/
def attach (op : BinaryOp) (l : Expr) : Expr → Expr
  | binary op' a b =>
    if op'.precedence = op.precedence then binary op' (attach op l a) b
    else binary op l (binary op' a b)
  | r => binary op l r

mutual

/-- The expression with every chain of operators of one level grouped to the left. -/
def leftNested : Expr → Expr
  | const v => const v
  | var n => var n
  | range lo hi => range lo.leftNested hi.leftNested
  | collection elements => collection (leftNestedAll elements)
  | app f args => app f (leftNestedAll args)
  | unary op e => unary op e.leftNested
  | binary op l r => attach op l.leftNested r.leftNested
  | ite c t f => ite c.leftNested t.leftNested f.leftNested

/-- The expressions of a list, each with its chains grouped to the left. -/
def leftNestedAll : List Expr → List Expr
  | [] => []
  | e :: es => e.leftNested :: leftNestedAll es

end

theorem leftNestedAll_eq_map (es : List Expr) : leftNestedAll es = es.map leftNested := by
  induction es with
  | nil => rfl
  | cons e es ih => rw [leftNestedAll, ih, List.map_cons]

/-- The attached operator is at the head, or one of its level is. -/
theorem exists_attach_eq (op : BinaryOp) (l r : Expr) :
    ∃ op' a b, attach op l r = binary op' a b ∧ op'.precedence = op.precedence := by
  unfold attach
  split
  · split
    case isTrue h => exact ⟨_, _, _, rfl, h⟩
    case isFalse => exact ⟨_, _, _, rfl, rfl⟩
  · exact ⟨_, _, _, rfl, rfl⟩

theorem attach_of_isLeftNestedNode {op : BinaryOp} {l r : Expr}
    (h : IsLeftNestedNode (binary op l r)) : attach op l r = binary op l r := by
  cases r with
  | binary op' a b => rw [attach, if_neg h]
  | _ => rfl

/-- An expression in which nothing is to be regrouped is kept. -/
theorem leftNested_of_isLeftNested {e : Expr} (h : e.IsLeftNested) : e.leftNested = e := by
  induction h with
  | @node e here _ ih =>
    have hall (es : List Expr) (h : ∀ x ∈ es, x.leftNested = x) : leftNestedAll es = es := by
      rw [leftNestedAll_eq_map, List.map_congr_left h, List.map_id']
    cases e with
    | const | var => rfl
    | collection es => rw [leftNested, hall es ih]
    | app f args => rw [leftNested, hall args ih]
    | binary op l r =>
      rw [leftNested, ih l (by simp [operands]), ih r (by simp [operands]),
        attach_of_isLeftNestedNode here]
    | range | unary | ite => simp_all [leftNested, operands]

theorem Everywhere.attach {p : Expr → Prop} (hp : ∀ op l r, p (binary op l r)) {op : BinaryOp}
    {l r : Expr} (hl : Everywhere p l) (hr : Everywhere p r) :
    Everywhere p (attach op l r) := by
  fun_induction Expr.attach op l r with
  | case1 op' a b h ih =>
    obtain ⟨-, ha, hb⟩ := binary_iff.mp hr
    exact binary_iff.mpr ⟨hp op' _ b, ih ha, hb⟩
  | case2 => exact binary_iff.mpr ⟨hp op l _, hl, hr⟩
  | case3 => exact binary_iff.mpr ⟨hp op l _, hl, hr⟩

theorem isLeftNested_attach {op : BinaryOp} {l r : Expr} (hl : l.IsLeftNested)
    (hr : r.IsLeftNested) : (attach op l r).IsLeftNested := by
  fun_induction attach op l r with
  | case1 op' a b h ih =>
    obtain ⟨hnode, ha, hb⟩ := Everywhere.binary_iff.mp hr
    refine Everywhere.binary_iff.mpr ⟨?_, ih ha, hb⟩
    cases b <;> exact hnode
  | case2 op' a b h => exact Everywhere.binary_iff.mpr ⟨h, hl, hr⟩
  | case3 r hbinary =>
    refine Everywhere.binary_iff.mpr ⟨?_, hl, hr⟩
    cases r with
    | binary op' a b => exact absurd rfl (hbinary op' a b)
    | _ => trivial

/-- No chain is left to be regrouped. -/
theorem isLeftNested_leftNested (e : Expr) : e.leftNested.IsLeftNested := by
  induction e using operands_induction with
  | step e ih =>
    cases e with
    | const | var => exact .node trivial (by simp [leftNested, operands])
    | collection es =>
      exact .node trivial (by simpa [leftNested, leftNestedAll_eq_map, operands] using ih)
    | app f args =>
      exact .node trivial (by simpa [leftNested, leftNestedAll_eq_map, operands] using ih)
    | binary op l r =>
      exact isLeftNested_attach (ih l (by simp [operands])) (ih r (by simp [operands]))
    | range | unary | ite => exact .node trivial (by simpa [leftNested, operands] using ih)

/-! ## Regrouped expressions as texts -/

/-- Attaching an operator is not seen in the text. -/
theorem print_attach (op : BinaryOp) (l r : Expr) :
    (attach op l r).print = (binary op l r).print := by
  fun_induction attach op l r with
  | case1 op' a b h ih =>
    obtain ⟨op'', x, y, hattach, hop⟩ := exists_attach_eq op l a
    -- the left operand is still one of the level, and has no parentheses
    have hleft : side (.op op') (attach op l a) = (attach op l a).print := by
      rw [hattach]
      exact side_binary (by omega) x y
    rw [print_binary, hleft, ih, print_binary, print_binary, side_binary (Nat.le_of_eq h.symm),
      print_binary, side_congr h a]
    simp only [String.append_assoc]
  | case2 => rfl
  | case3 => rfl

theorem needsParens_leftNested (parent e : Expr) :
    needsParens parent e.leftNested = needsParens parent e := by
  cases e with
  | binary op l r =>
    obtain ⟨op', a, b, hattach, hop⟩ := exists_attach_eq op l.leftNested r.leftNested
    rw [leftNested, hattach]
    cases parent <;> simp [needsParens, hop]
  | _ => cases parent <;> rfl

theorem side_leftNested {e : Expr} (h : e.leftNested.print = e.print) (k : Separator) :
    side k e.leftNested = side k e := by
  rw [side, side, inParens, needsParens_leftNested, needsParens_join, h]

/-- Regrouping to the left is not seen in the text. -/
theorem print_leftNested (e : Expr) : e.leftNested.print = e.print := by
  induction e using operands_induction with
  | step e ih =>
    have hall (es : List Expr) (h : ∀ x ∈ es, x.leftNested.print = x.print) :
        printAll (leftNestedAll es) = printAll es := by
      rw [leftNestedAll_eq_map, printAll_eq_map, printAll_eq_map, List.map_map]
      exact List.map_congr_left h
    cases e with
    | const | var => rfl
    | range lo hi =>
      have hprint := print_join .dots lo.leftNested hi.leftNested
      rw [side_leftNested (ih lo (by simp [operands])),
        side_leftNested (ih hi (by simp [operands])), ← print_join] at hprint
      exact hprint
    | collection es => rw [leftNested, print, print, hall es ih]
    | app f args => rw [leftNested, print, print, hall args ih]
    | unary op e =>
      rw [leftNested, print, print, needsParens_leftNested, needsParens_unary,
        needsParens_unary op e, ih e (by simp [operands])]
    | binary op l r =>
      rw [leftNested, print_attach, print_binary, print_binary,
        side_leftNested (ih l (by simp [operands])), side_leftNested (ih r (by simp [operands]))]
    | ite c t f =>
      rw [leftNested, print, print, ih c (by simp [operands]), ih t (by simp [operands]),
        ih f (by simp [operands])]

end AlgebraicModel.Expr
