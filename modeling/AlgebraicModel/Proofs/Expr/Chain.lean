import AlgebraicModel.Proofs.Expr.Nesting

/-!
# Expressions as chains of operands

What is printed of an expression is a chain: an operand, and then separators with an operand behind
each, where an operand is an expression in parentheses or one that has no separator of its own
(`chars_chain`). No separator of a chain binds more loosely than the one at the head of the
expression (`level_le_of_mem_chain`), and those behind it bind more tightly where chains are grouped
to the left. So the head is the last of the loosest separators, and of expressions that are grouped
to the left the chain determines the expression (`eq_of_chain_eq`).
-/

set_option autoImplicit false

namespace AlgebraicModel.Expr

/-! ## Chains -/

/-- An expression as it stands between separators, in parentheses or not. -/
structure Operand where
  parens : Bool
  expr : Expr

/-- An operand, and the separators behind it with their operands. -/
abbrev Chain := Operand × List (Separator × Operand)

/-- The chain of two chains with a separator between them. -/
def Chain.join (k : Separator) (a b : Chain) : Chain := (a.1, a.2 ++ (k, b.1) :: b.2)

/-- The chain of an expression. -/
def chain : Expr → Chain
  | range lo hi =>
    Chain.join .dots (if inParens .dots lo then (⟨true, lo⟩, []) else chain lo)
      (if inParens .dots hi then (⟨true, hi⟩, []) else chain hi)
  | binary op l r =>
    Chain.join (.op op) (if inParens (.op op) l then (⟨true, l⟩, []) else chain l)
      (if inParens (.op op) r then (⟨true, r⟩, []) else chain r)
  | e => (⟨false, e⟩, [])

/-- The chain of an expression at the side of a separator. -/
def sideChain (k : Separator) (x : Expr) : Chain :=
  if inParens k x then (⟨true, x⟩, []) else chain x

theorem chain_join (k : Separator) (l r : Expr) :
    chain (k.join l r) = Chain.join k (sideChain k l) (sideChain k r) := by
  cases k <;> rfl

theorem operands_join (k : Separator) (l r : Expr) : (k.join l r).operands = [l, r] := by
  cases k <;> rfl

/-- The expression has no separator. -/
def IsAtom : Expr → Prop
  | range _ _ | binary _ _ _ => False
  | _ => True

theorem chain_of_isAtom {e : Expr} (h : e.IsAtom) : chain e = (⟨false, e⟩, []) := by
  cases e with
  | range | binary => cases h
  | _ => rfl

theorem eq_join_or_isAtom (e : Expr) : (∃ k l r, e = Separator.join k l r) ∨ e.IsAtom := by
  cases e with
  | range lo hi => exact .inl ⟨.dots, lo, hi, rfl⟩
  | binary op l r => exact .inl ⟨.op op, l, r, rfl⟩
  | _ => exact .inr trivial

/-! ## Operands of a chain -/

/-- The property holds of every operand of the chain. -/
def Chain.All (p : Operand → Prop) (c : Chain) : Prop := p c.1 ∧ ∀ link ∈ c.2, p link.2

variable {p : Operand → Prop}

theorem all_sideChain {k : Separator} {x : Expr} (hparens : p ⟨true, x⟩)
    (hchain : (chain x).All p) : (sideChain k x).All p := by
  rw [sideChain]
  split
  · exact ⟨hparens, by simp⟩
  · exact hchain

/-- A property of all operands passes to an expression from the two sides of its separator. -/
theorem all_chain_join {k : Separator} {l r : Expr}
    (hparens : ∀ x ∈ (k.join l r).operands, p ⟨true, x⟩)
    (hchain : ∀ x ∈ (k.join l r).operands, (chain x).All p) : (chain (k.join l r)).All p := by
  rw [operands_join] at hparens hchain
  have hl : (sideChain k l).All p := all_sideChain (hparens l (by simp)) (hchain l (by simp))
  have hr : (sideChain k r).All p := all_sideChain (hparens r (by simp)) (hchain r (by simp))
  rw [chain_join]
  exact ⟨hl.1, List.forall_mem_append.mpr ⟨hl.2, List.forall_mem_cons.mpr hr⟩⟩

theorem all_chain_of_isAtom {e : Expr} (h : e.IsAtom) (he : p ⟨false, e⟩) : (chain e).All p := by
  rw [chain_of_isAtom h]
  exact ⟨he, by simp⟩

/-! ## Chains as texts -/

/-- An operand as it is printed. -/
def Operand.chars (x : Operand) : List Char := (parenthesized x.parens x.expr.print).toList

@[simp] theorem Operand.chars_parens (e : Expr) :
    Operand.chars ⟨true, e⟩ = '(' :: (e.print.toList ++ [')']) := by
  simp [Operand.chars, parenthesized]

@[simp] theorem Operand.chars_bare (e : Expr) : Operand.chars ⟨false, e⟩ = e.print.toList := rfl

@[simp] theorem Separator.toList_text_dots : dots.text.toList = ['.', '.'] := rfl

@[simp] theorem Separator.toList_text_op (o : BinaryOp) :
    (op o).text.toList = ' ' :: (o.symbol.toList ++ [' ']) := by
  simp [Separator.text]

/-- The separators of a chain and the operands behind them as they are printed. -/
def linkChars (links : List (Separator × Operand)) : List Char :=
  links.flatMap fun link => link.1.text.toList ++ link.2.chars

@[simp] theorem linkChars_nil : linkChars [] = [] := rfl

@[simp] theorem linkChars_cons (k : Separator) (x : Operand) (links : List (Separator × Operand)) :
    linkChars ((k, x) :: links) = k.text.toList ++ (x.chars ++ linkChars links) := by
  simp [linkChars]

theorem linkChars_append (links links' : List (Separator × Operand)) :
    linkChars (links ++ links') = linkChars links ++ linkChars links' :=
  List.flatMap_append

/-- A chain as it is printed. -/
def Chain.chars (c : Chain) : List Char := c.1.chars ++ linkChars c.2

theorem Chain.chars_join (k : Separator) (a b : Chain) :
    (Chain.join k a b).chars = a.chars ++ (k.text.toList ++ b.chars) := by
  simp [Chain.join, Chain.chars, linkChars_append]

theorem chars_sideChain {x : Expr} (h : (chain x).chars = x.print.toList) (k : Separator) :
    (sideChain k x).chars = (side k x).toList := by
  rw [sideChain, side]
  cases inParens k x with
  | true => exact List.append_nil _
  | false => exact h

/-- An expression is printed as its chain. -/
theorem chars_chain (e : Expr) : (chain e).chars = e.print.toList := by
  induction e using operands_induction with
  | step e ih =>
    obtain ⟨k, l, r, rfl⟩ | hatom := e.eq_join_or_isAtom
    · rw [operands_join] at ih
      rw [chain_join, Chain.chars_join, chars_sideChain (ih l (by simp)),
        chars_sideChain (ih r (by simp)), print_join, String.toList_append, String.toList_append,
        List.append_assoc]
    · rw [chain_of_isAtom hatom]
      exact List.append_nil _

/-! ## The head of a chain -/

/-- How tightly a separator binds. -/
def Separator.level : Separator → Nat
  | dots => 0
  | op o => o.precedence

/-- What has no parentheses at the side of a separator binds at least as tightly. -/
theorem level_le_of_inParens {k k' : Separator} {l r : Expr}
    (h : inParens k (k'.join l r) = false) : k.level ≤ k'.level := by
  cases k <;> cases k' <;> simp_all [inParens, Separator.join, Separator.level, needsParens]

/-- A separator at the right of one of its level has parentheses where chains are grouped to the
left. -/
theorem level_lt_of_isLeftNestedNode {k k' : Separator} {x l r : Expr}
    (hnode : IsLeftNestedNode (k.join x (k'.join l r)))
    (h : inParens k (k'.join l r) = false) : k.level < k'.level := by
  refine Nat.lt_of_le_of_ne (level_le_of_inParens h) ?_
  cases k <;> cases k' <;>
    simp_all [inParens, Separator.join, Separator.level, needsParens, IsLeftNestedNode, Ne.symm]

theorem level_le_of_mem_sideChain {k : Separator} {x : Expr}
    (hx : ∀ k' l r, x = Separator.join k' l r → ∀ link ∈ (chain x).2, k'.level ≤ link.1.level) :
    ∀ link ∈ (sideChain k x).2, k.level ≤ link.1.level := by
  intro link hlink
  rw [sideChain] at hlink
  split at hlink
  case isTrue => cases hlink
  case isFalse h =>
    obtain ⟨k', l, r, rfl⟩ | hatom := x.eq_join_or_isAtom
    · exact Nat.le_trans (level_le_of_inParens (by simpa using h)) (hx k' l r rfl link hlink)
    · rw [chain_of_isAtom hatom] at hlink
      cases hlink

/-- No separator of a chain binds more loosely than the head of the expression. -/
theorem level_le_of_mem_chain (e : Expr) :
    ∀ k l r, e = Separator.join k l r → ∀ link ∈ (chain e).2, k.level ≤ link.1.level := by
  induction e using operands_induction with
  | step e ih =>
    rintro k l r rfl link hlink
    rw [operands_join] at ih
    rw [chain_join, Chain.join, List.mem_append, List.mem_cons] at hlink
    rcases hlink with hlink | rfl | hlink
    · exact level_le_of_mem_sideChain (ih l (by simp)) link hlink
    · exact Nat.le_refl _
    · exact level_le_of_mem_sideChain (ih r (by simp)) link hlink

/-- The separators at the right of the head bind more tightly in a chain grouped to the left. -/
theorem level_lt_of_mem_sideChain {k : Separator} {x y : Expr}
    (h : IsLeftNestedNode (k.join x y)) : ∀ link ∈ (sideChain k y).2, k.level < link.1.level := by
  intro link hlink
  rw [sideChain] at hlink
  split at hlink
  case isTrue => cases hlink
  case isFalse hparens =>
    obtain ⟨k', l, r, rfl⟩ | hatom := y.eq_join_or_isAtom
    · exact Nat.lt_of_lt_of_le (level_lt_of_isLeftNestedNode h (by simpa using hparens))
        (level_le_of_mem_chain _ k' l r rfl link hlink)
    · rw [chain_of_isAtom hatom] at hlink
      cases hlink

/-- A list is split in one way only at the last of its least entries. -/
theorem split_unique_of_last_least {α : Type} (level : α → Nat) {xs ys xs' ys' : List α} {x x' : α}
    (hxs : ∀ z ∈ xs, level x ≤ level z) (hys : ∀ z ∈ ys, level x < level z)
    (hxs' : ∀ z ∈ xs', level x' ≤ level z) (hys' : ∀ z ∈ ys', level x' < level z)
    (h : xs ++ x :: ys = xs' ++ x' :: ys') : xs = xs' ∧ x = x' ∧ ys = ys' := by
  rcases List.append_eq_append_iff.mp h with ⟨mid, rfl, hmid⟩ | ⟨mid, rfl, hmid⟩
  · cases mid with
    | nil => simpa using hmid
    | cons z mid =>
      -- each of the two entries would stand before the other
      obtain ⟨rfl, rfl⟩ := List.cons.inj hmid
      have hle : level x' ≤ level x := hxs' x (by simp)
      have hlt : level x < level x' := hys x' (by simp)
      omega
  · cases mid with
    | nil => simpa using hmid.symm
    | cons z mid =>
      obtain ⟨rfl, rfl⟩ := List.cons.inj hmid
      have hle : level x ≤ level x' := hxs x' (by simp)
      have hlt : level x' < level x := hys' x (by simp)
      omega

/-! ## The expression of a chain -/

/-- Only the chain of an expression in parentheses is one operand in parentheses. -/
theorem chain_ne_parens (e x : Expr) : chain e ≠ (⟨true, x⟩, []) := by
  obtain ⟨k, l, r, rfl⟩ | hatom := e.eq_join_or_isAtom
  · simp [chain_join, Chain.join]
  · simp [chain_of_isAtom hatom]

theorem eq_of_sideChain_eq {k : Separator} {x y : Expr} (hx : chain x = chain y → x = y)
    (h : sideChain k x = sideChain k y) : x = y := by
  rw [sideChain, sideChain] at h
  split at h <;> split at h
  · simpa using h
  · exact absurd h.symm (chain_ne_parens y x)
  · exact absurd h (chain_ne_parens x y)
  · exact hx h

/-- Where chains are grouped to the left, the chain determines the expression. -/
theorem eq_of_chain_eq {e e' : Expr} (he : e.IsLeftNested) (he' : e'.IsLeftNested)
    (h : chain e = chain e') : e = e' := by
  induction e using operands_induction generalizing e' with
  | step e ih =>
    obtain ⟨k, l, r, rfl⟩ | hatom := e.eq_join_or_isAtom <;>
      obtain ⟨k', l', r', rfl⟩ | hatom' := e'.eq_join_or_isAtom
    · have hl : l ∈ (k.join l r).operands := by simp [operands_join]
      have hr : r ∈ (k.join l r).operands := by simp [operands_join]
      have hl' : l' ∈ (k'.join l' r').operands := by simp [operands_join]
      have hr' : r' ∈ (k'.join l' r').operands := by simp [operands_join]
      rw [chain_join, chain_join, Chain.join, Chain.join, Prod.mk.injEq] at h
      obtain ⟨hfirst, hlinks⟩ := h
      -- both heads are the last of the loosest separators, and there is only one such place
      have hsplit := split_unique_of_last_least (fun link => link.1.level)
        (level_le_of_mem_sideChain (level_le_of_mem_chain l))
        (level_lt_of_mem_sideChain he.here)
        (level_le_of_mem_sideChain (level_le_of_mem_chain l'))
        (level_lt_of_mem_sideChain he'.here) hlinks
      obtain ⟨hleft, hhead, hright⟩ := hsplit
      obtain ⟨rfl, hsecond⟩ := Prod.mk.inj hhead
      have hleq : l = l' := eq_of_sideChain_eq (ih l hl (he.inside hl) (he'.inside hl'))
        (Prod.ext hfirst hleft)
      have hreq : r = r' := eq_of_sideChain_eq (ih r hr (he.inside hr) (he'.inside hr'))
        (Prod.ext hsecond hright)
      rw [hleq, hreq]
    · simp [chain_join, chain_of_isAtom hatom', Chain.join] at h
    · simp [chain_join, chain_of_isAtom hatom, Chain.join] at h
    · simpa [chain_of_isAtom hatom, chain_of_isAtom hatom'] using h

end AlgebraicModel.Expr
