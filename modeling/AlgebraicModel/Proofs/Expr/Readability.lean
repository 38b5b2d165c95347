import AlgebraicModel.Expr.Eval
import AlgebraicModel.Proofs.Expr.Forms
import AlgebraicModel.Proofs.Text.Delimited

/-!
# What the text of an expression tells

A plain expression without signs before ranges is printed like another one exactly if the two differ
in nothing but the grouping of operators of one level (`print_eq_iff`), which the parentheses do not
show. What is proved of an expression is that its text determines it whatever follows, as far as
this closes something or ends (`Expr.Determined`), and of an operand the same where a separator may
follow (`Expr.Operand.Determined`). Each form of an operand passes this on from its parts to the
whole; then a text gives the operands and the separators of a chain one by one, and the chain the
expression.
-/

set_option autoImplicit false

namespace AlgebraicModel

namespace Expr

/-! ## What stands behind -/

/-- The text ends here, or goes on with a closing bracket or a comma. -/
def Closes (s : List Char) : Prop := ∀ c ∈ s.head?, c = ')' ∨ c = '\x7d' ∨ c = ','

/-- What can stand behind an operand. -/
inductive EndsOperand : List Char → Prop
  | closes {s : List Char} (h : Closes s) : EndsOperand s
  | separator (k : Separator) (s : List Char) : EndsOperand (k.text.toList ++ s)

namespace EndsOperand

variable {s : List Char}

theorem not_continues (h : EndsOperand s) :
    ∀ c ∈ s.head?, isNameChar c = false ∧ c.isDigit = false := by
  cases h with
  | closes h =>
    intro c hc
    rcases h c hc with rfl | rfl | rfl <;> decide
  | separator k s =>
    intro c hc
    cases k with
    | dots =>
      cases hc
      decide
    | op o =>
      rw [Separator.toList_text_op] at hc
      cases hc
      decide

/-- Behind an operand stands no bracket of arguments and no bracket of a condition. -/
theorem ne_paren (h : EndsOperand s) (t : List Char) : s ≠ '(' :: t ∧ s ≠ ' ' :: '(' :: t := by
  cases h with
  | closes h =>
    constructor
    · rintro rfl
      simpa using h '(' rfl
    · rintro rfl
      simpa using h ' ' rfl
  | separator k s =>
    cases k with
    | dots => simp
    | op o => cases o <;> simp [BinaryOp.symbol]

end EndsOperand

theorem closes_cons {c : Char} (h : c = ')' ∨ c = '\x7d' ∨ c = ',') (s : List Char) :
    Closes (c :: s) := by
  intro d hd
  cases hd
  exact h

/-! ## Determined operands -/

/-- Whatever follows, no other expression is printed with which the text begins. -/
def Determined (e : Expr) : Prop :=
  ∀ e' s t, IsReadable e' → Closes s → Closes t →
    e.print.toList ++ s = e'.print.toList ++ t → e = e' ∧ s = t

/-- Whatever follows, no other operand is printed with which the text begins. -/
def Operand.Determined (x : Operand) : Prop :=
  ∀ (y : Operand) s t, y.IsReadable → EndsOperand s → EndsOperand t →
    x.chars ++ s = y.chars ++ t → x = y ∧ s = t

/-! ## One lemma for each form -/

theorem determined_parens {e : Expr} (he : e.IsReadable) (h : e.Determined) :
    Operand.Determined ⟨true, e⟩ := by
  intro y s t hy hs ht heq
  obtain ⟨_, hform, hform'⟩ := Operand.exists_hasForm (Operand.isReadable_parens he) hy heq
  cases hform
  cases hform' with
  | parens e' =>
    simp only [Operand.chars_parens, List.cons_append, List.append_assoc, List.cons.injEq,
      true_and, List.nil_append] at heq
    obtain ⟨rfl, hst⟩ := h e' _ _ hy.readable (closes_cons (by simp) s) (closes_cons (by simp) t)
      heq
    exact ⟨rfl, (List.cons.inj hst).2⟩

theorem determined_int {n : Int64} (he : IsReadable (const (.int n))) :
    Operand.Determined ⟨false, const (.int n)⟩ := by
  intro y s t hy hs ht heq
  obtain ⟨_, hform, hform'⟩ := Operand.exists_hasForm (Operand.isReadable_bare he trivial) hy heq
  have hn : 0 ≤ n.toInt := he.here.1.1
  cases hform
  cases hform' with
  | number m hm =>
    rw [Operand.chars_bare, Operand.chars_bare, print_int hn, print_int hm] at heq
    have hdigit (k : Nat) : ∀ c ∈ Nat.toDigits 10 k, c.isDigit = true :=
      fun _ hc => Nat.isDigit_of_mem_toDigits (by decide) (by decide) hc
    obtain ⟨hdigits, rfl⟩ := Text.append_inj_of_run (hdigit _) (hdigit _)
      (fun c hc => (hs.not_continues c hc).2) (fun c hc => (ht.not_continues c hc).2) heq
    have hnat : n.toInt.toNat = m.toInt.toNat := Text.toDigits_injective hdigits
    have hint : n.toInt = m.toInt := by omega
    rw [Int64.toInt_inj.mp hint]
    exact ⟨rfl, rfl⟩

theorem determined_str {a : String} (he : IsReadable (const (.str a))) :
    Operand.Determined ⟨false, const (.str a)⟩ := by
  intro y s t hy hs ht heq
  obtain ⟨_, hform, hform'⟩ := Operand.exists_hasForm (Operand.isReadable_bare he trivial) hy heq
  cases hform
  cases hform' with
  | quoted b =>
    obtain ⟨rfl, hst⟩ := Text.quoted_append_inj heq
    exact ⟨rfl, hst⟩

/-- What is printed of a list behind its first expression. -/
def tailChars (es : List Expr) : List Char := es.flatMap fun e => ',' :: ' ' :: e.print.toList

theorem listChars_cons (e : Expr) (es : List Expr) :
    listChars (e :: es) = e.print.toList ++ tailChars es := by
  rw [listChars, List.map_cons, Text.intercalate_cons, List.flatMap_map]
  rfl

theorem closes_tailChars {k : Char} (hk : k = ')' ∨ k = '\x7d') (es : List Expr) (s : List Char) :
    Closes (tailChars es ++ k :: s) := by
  cases es with
  | nil => exact closes_cons (by tauto) s
  | cons e es => exact closes_cons (by simp) _

theorem tailChars_append_inj {k : Char} (hk : k = ')' ∨ k = '\x7d') {es es' : List Expr}
    (hes : ∀ e ∈ es, e.Determined) (hes' : ∀ e ∈ es', e.IsReadable) {s t : List Char}
    (h : tailChars es ++ k :: s = tailChars es' ++ k :: t) : es = es' ∧ s = t := by
  have hne : k ≠ ',' := by
    rcases hk with rfl | rfl <;> decide
  induction es generalizing es' with
  | nil =>
    cases es' with
    | nil => exact ⟨rfl, (List.cons.inj h).2⟩
    | cons e' es' => exact absurd (List.cons.inj h).1 hne
  | cons e es ih =>
    cases es' with
    | nil => exact absurd (List.cons.inj h).1.symm hne
    | cons e' es' =>
      rw [List.forall_mem_cons] at hes hes'
      simp only [tailChars, List.flatMap_cons, List.cons_append, List.append_assoc,
        List.cons.injEq, true_and] at h
      obtain ⟨rfl, hrest⟩ := hes.1 e' _ _ hes'.1 (closes_tailChars hk es s)
        (closes_tailChars hk es' t) h
      obtain ⟨rfl, hst⟩ := ih hes.2 hes'.2 hrest
      exact ⟨rfl, hst⟩

/-- Between brackets, the expressions of a list are determined by the text if each of them is. -/
theorem listChars_append_inj {k : Char} (hk : k = ')' ∨ k = '\x7d') {es es' : List Expr}
    (hes : ∀ e ∈ es, e.IsReadable ∧ e.Determined) (hes' : ∀ e ∈ es', e.IsReadable)
    {s t : List Char} (h : listChars es ++ k :: s = listChars es' ++ k :: t) :
    es = es' ∧ s = t := by
  -- no expression begins with the bracket that closes the list
  have hopen {e : Expr} (he : e.IsReadable) (cs ds : List Char) :
      e.print.toList ++ cs ≠ k :: ds := by
    obtain ⟨c, cs', hc, hne⟩ := exists_print_cons he
    rw [hc]
    rintro ⟨⟩
    rcases hk with rfl | rfl
    · exact hne.1 rfl
    · exact hne.2 rfl
  cases es with
  | nil =>
    cases es' with
    | nil => exact ⟨rfl, (List.cons.inj h).2⟩
    | cons e' es' =>
      rw [listChars_cons, List.append_assoc] at h
      exact absurd h.symm (hopen (hes' e' List.mem_cons_self) _ _)
  | cons e es =>
    rw [List.forall_mem_cons] at hes
    cases es' with
    | nil =>
      rw [listChars_cons, List.append_assoc] at h
      exact absurd h (hopen hes.1.1 _ _)
    | cons e' es' =>
      rw [List.forall_mem_cons] at hes'
      rw [listChars_cons, listChars_cons, List.append_assoc, List.append_assoc] at h
      obtain ⟨rfl, hrest⟩ := hes.1.2 e' _ _ hes'.1 (closes_tailChars hk es s)
        (closes_tailChars hk es' t) h
      obtain ⟨rfl, hst⟩ := tailChars_append_inj hk (fun x hx => (hes.2 x hx).2) hes'.2 hrest
      exact ⟨rfl, hst⟩

theorem determined_collection {es : List Expr} (he : IsReadable (collection es))
    (hes : ∀ e ∈ es, e.Determined) : Operand.Determined ⟨false, collection es⟩ := by
  intro y s t hy hs ht heq
  obtain ⟨_, hform, hform'⟩ := Operand.exists_hasForm (Operand.isReadable_bare he trivial) hy heq
  cases hform
  cases hform' with
  | braces es' =>
    simp only [Operand.chars_bare, print_collection, List.cons_append, List.append_assoc,
      List.cons.injEq, true_and, List.nil_append] at heq
    obtain ⟨rfl, hst⟩ := listChars_append_inj (.inr rfl)
      (fun e h => ⟨he.inside h, hes e h⟩) (fun e h => hy.readable.inside h) heq
    exact ⟨rfl, hst⟩

/-- What stands behind a sign without parentheses has no separator. -/
theorem isAtom_of_unary {op : UnaryOp} {e : Expr} (he : IsUnsignedRange (unary op e))
    (h : needsParens (unary op e) e = false) : e.IsAtom := by
  cases e with
  | range => exact he
  | binary => cases h
  | _ => trivial

theorem isReadable_operand_unary {op : UnaryOp} {e : Expr} (he : IsReadable (unary op e)) :
    Operand.IsReadable ⟨needsParens (unary op e) e, e⟩ :=
  ⟨isAtom_of_unary he.here.1.2, he.inside (by simp [operands])⟩

theorem determined_unary {op : UnaryOp} {e : Expr} (he : IsReadable (unary op e))
    (hoperand : Operand.Determined ⟨needsParens (unary op e) e, e⟩) :
    Operand.Determined ⟨false, unary op e⟩ := by
  intro y s t hy hs ht heq
  obtain ⟨_, hform, hform'⟩ := Operand.exists_hasForm (Operand.isReadable_bare he trivial) hy heq
  cases hform
  cases hform' with
  | sign op' e' =>
    rw [Operand.chars_bare, Operand.chars_bare, print_unary, print_unary, List.append_assoc,
      List.append_assoc] at heq
    have hsymbol : op = op' ∧ Operand.chars ⟨needsParens (unary op e) e, e⟩ ++ s =
        Operand.chars ⟨needsParens (unary op' e') e', e'⟩ ++ t := by
      cases op <;> cases op' <;> simp_all [UnaryOp.symbol]
    obtain ⟨rfl, hrest⟩ := hsymbol
    obtain ⟨hoperands, hst⟩ := hoperand _ s t (isReadable_operand_unary hy.readable) hs ht hrest
    obtain ⟨-, rfl⟩ := Operand.mk.inj hoperands
    exact ⟨rfl, hst⟩

/-- A word shows where it ends, and what stands behind it. -/
theorem word_append_inj {e e' : Expr} (he : HasForm .word ⟨false, e⟩)
    (he' : HasForm .word ⟨false, e'⟩) {s t : List Char} (hs : EndsOperand s) (ht : EndsOperand t)
    (h : e.print.toList ++ s = e'.print.toList ++ t) :
    word e = word e' ∧ afterWord e ++ s = afterWord e' ++ t := by
  have hprint {e : Expr} (he : HasForm .word ⟨false, e⟩) :
      e.print.toList = word e ++ afterWord e := by
    cases he with
    | name => exact print_var _
    | application => exact print_app _ _
    | conditional => exact print_ite _ _ _
  have hword {e : Expr} (he : HasForm .word ⟨false, e⟩) : ∀ c ∈ word e, isNameChar c = true := by
    cases he with
    | name h => exact h.chars
    | application h => exact h.chars
    | conditional => simp [word, isNameChar, marks]
  have hafter {e : Expr} (he : HasForm .word ⟨false, e⟩) {s : List Char} (hs : EndsOperand s) :
      ∀ c ∈ (afterWord e ++ s).head?, isNameChar c = false := by
    cases he with
    | name => exact fun c hc => (hs.not_continues c hc).1
    | application | conditional =>
      intro c hc
      cases hc
      decide
  rw [hprint he, hprint he', List.append_assoc, List.append_assoc] at h
  exact Text.append_inj_of_run (hword he) (hword he') (hafter he hs) (hafter he' ht) h

theorem determined_var {n : Name} (he : IsReadable (var n)) :
    Operand.Determined ⟨false, var n⟩ := by
  intro y s t hy hs ht heq
  obtain ⟨_, hform, hform'⟩ := Operand.exists_hasForm (Operand.isReadable_bare he trivial) hy heq
  cases hform with
  | name hn =>
    cases hform' with
    | name hm =>
      obtain ⟨hword, hafter⟩ := word_append_inj (.name hn) (.name hm) hs ht heq
      obtain rfl : n = _ := congrArg Name.mk (String.toList_inj.mp hword)
      exact ⟨rfl, hafter⟩
    | application hm args =>
      -- behind the name would stand the bracket of the arguments
      have hafter := (word_append_inj (.name hn) (.application hm args) hs ht heq).2
      exact absurd hafter (hs.ne_paren _).1
    | conditional c t f =>
      have hafter := (word_append_inj (.name hn) (.conditional c t f) hs ht heq).2
      exact absurd hafter (hs.ne_paren _).2

theorem determined_app {f : Name} {args : List Expr} (he : IsReadable (app f args))
    (hargs : ∀ e ∈ args, e.Determined) : Operand.Determined ⟨false, app f args⟩ := by
  intro y s t hy hs ht heq
  obtain ⟨_, hform, hform'⟩ := Operand.exists_hasForm (Operand.isReadable_bare he trivial) hy heq
  have hwords {e' : Expr} (he' : HasForm .word ⟨false, e'⟩)
      (heq : Operand.chars ⟨false, app f args⟩ ++ s = Operand.chars ⟨false, e'⟩ ++ t) :=
    word_append_inj (.application he.here.1.1 args) he' hs ht heq
  cases hform
  cases hform' with
  | name hm => exact absurd (hwords (.name hm) heq).2.symm (ht.ne_paren _).1
  | application hm args' =>
    obtain ⟨hword, hafter⟩ := hwords (.application hm args') heq
    obtain rfl : f = _ := congrArg Name.mk (String.toList_inj.mp hword)
    simp only [afterWord, List.cons_append, List.append_assoc, List.cons.injEq, true_and,
      List.nil_append] at hafter
    obtain ⟨rfl, hst⟩ := listChars_append_inj (.inl rfl) (fun e h => ⟨he.inside h, hargs e h⟩)
      (fun e h => hy.readable.inside h) hafter
    exact ⟨rfl, hst⟩
  | conditional c t f => cases (hwords (.conditional c t f) heq).2

theorem determined_ite {c t f : Expr} (he : IsReadable (ite c t f)) (hc : c.Determined)
    (ht : t.Determined) (hf : f.Determined) : Operand.Determined ⟨false, ite c t f⟩ := by
  intro y rest rest' hy hrest hrest' heq
  obtain ⟨_, hform, hform'⟩ := Operand.exists_hasForm (Operand.isReadable_bare he trivial) hy heq
  have hwords {e' : Expr} (he' : HasForm .word ⟨false, e'⟩)
      (heq : Operand.chars ⟨false, ite c t f⟩ ++ rest = Operand.chars ⟨false, e'⟩ ++ rest') :=
    word_append_inj (.conditional c t f) he' hrest hrest' heq
  cases hform
  cases hform' with
  | name hm => exact absurd (hwords (.name hm) heq).2.symm (hrest'.ne_paren _).2
  | application hm args => cases (hwords (.application hm args) heq).2
  | conditional c' t' f' =>
    have hpart {x x' : Expr} (hx : x.Determined) (hx' : x' ∈ [c', t', f']) {cs ds : List Char}
        (h : x.print.toList ++ ')' :: cs = x'.print.toList ++ ')' :: ds) : x = x' ∧ cs = ds := by
      obtain ⟨rfl, hst⟩ := hx x' _ _ (hy.readable.inside hx') (closes_cons (by simp) cs)
        (closes_cons (by simp) ds) h
      exact ⟨rfl, (List.cons.inj hst).2⟩
    have hafter := (hwords (.conditional c' t' f') heq).2
    simp only [afterWord, List.cons_append, List.append_assoc, List.cons.injEq, true_and,
      List.nil_append] at hafter
    obtain ⟨rfl, hthen⟩ := hpart hc (by simp) hafter
    obtain ⟨rfl, helse⟩ := hpart ht (by simp) (List.append_cancel_left hthen)
    obtain ⟨rfl, hst⟩ := hpart hf (by simp) (List.append_cancel_left helse)
    exact ⟨rfl, hst⟩

/-! ## Determined expressions -/

theorem symbol_inj {o o' : BinaryOp} (h : o.symbol = o'.symbol) : o = o' := by
  revert h
  cases o <;> cases o' <;> decide

/-- A separator shows where it ends: an operator has no blank in it. -/
theorem separator_append_inj {k k' : Separator} {s t : List Char}
    (h : k.text.toList ++ s = k'.text.toList ++ t) : k = k' ∧ s = t := by
  have hsymbol (o : BinaryOp) : ∀ c ∈ o.symbol.toList, (c != ' ') = true := by
    cases o <;> simp [BinaryOp.symbol]
  cases k with
  | dots =>
    cases k' with
    | dots => simpa using h
    | op o' => simp at h
  | op o =>
    cases k' with
    | dots => simp at h
    | op o' =>
      simp only [Separator.toList_text_op, List.cons_append, List.append_assoc, List.cons.injEq,
        true_and, List.nil_append] at h
      obtain ⟨hsame, hst⟩ := Text.append_inj_of_run (hsymbol o) (hsymbol o') (by simp) (by simp) h
      rw [symbol_inj (String.toList_inj.mp hsame)]
      exact ⟨rfl, (List.cons.inj hst).2⟩

theorem endsOperand_linkChars {s : List Char} (hs : Closes s)
    (links : List (Separator × Operand)) : EndsOperand (linkChars links ++ s) := by
  cases links with
  | nil => exact .closes hs
  | cons link links =>
    rw [linkChars_cons, List.append_assoc]
    exact .separator link.1 _

theorem not_closes_separator (k : Separator) (s : List Char) :
    ¬ Closes (k.text.toList ++ s) := by
  intro h
  cases k with
  | dots => simpa using h '.' rfl
  | op o => simpa using h ' ' (by simp)

/-- The separators of a chain and the operands behind them are determined by the text if each of the
operands is. -/
theorem linkChars_append_inj {links links' : List (Separator × Operand)}
    (hlinks : ∀ link ∈ links, link.2.Determined) (hlinks' : ∀ link ∈ links', link.2.IsReadable)
    {s t : List Char} (hs : Closes s) (ht : Closes t)
    (h : linkChars links ++ s = linkChars links' ++ t) : links = links' ∧ s = t := by
  induction links generalizing links' with
  | nil =>
    cases links' with
    | nil => exact ⟨rfl, h⟩
    | cons link' links' =>
      -- what follows a chain closes something, and no separator does
      rw [linkChars_cons, List.append_assoc, linkChars_nil, List.nil_append] at h
      rw [h] at hs
      exact absurd hs (not_closes_separator _ _)
  | cons link links ih =>
    cases links' with
    | nil =>
      rw [linkChars_cons, List.append_assoc, linkChars_nil, List.nil_append] at h
      rw [← h] at ht
      exact absurd ht (not_closes_separator _ _)
    | cons link' links' =>
      rw [List.forall_mem_cons] at hlinks hlinks'
      rw [linkChars_cons, linkChars_cons, List.append_assoc, List.append_assoc, List.append_assoc,
        List.append_assoc] at h
      obtain ⟨hseparator, hrest⟩ := separator_append_inj h
      obtain ⟨hoperand, hrest⟩ := hlinks.1 link'.2 _ _ hlinks'.1 (endsOperand_linkChars hs links)
        (endsOperand_linkChars ht links') hrest
      obtain ⟨rfl, hst⟩ := ih hlinks.2 hlinks'.2 hrest
      exact ⟨by rw [Prod.ext hseparator hoperand], hst⟩

/-- An expression is determined by its text if the operands of its chain are. -/
theorem determined_of_chain {e : Expr} (he : e.IsReadable)
    (h : (chain e).All Operand.Determined) : e.Determined := by
  intro e' s t he' hs ht heq
  rw [← chars_chain, ← chars_chain, Chain.chars, Chain.chars, List.append_assoc,
    List.append_assoc] at heq
  obtain ⟨hfirst, hrest⟩ := h.1 (chain e').1 _ _ (all_chain he').1 (endsOperand_linkChars hs _)
    (endsOperand_linkChars ht _) heq
  obtain ⟨hlinks, hst⟩ := linkChars_append_inj h.2 (all_chain he').2 hs ht hrest
  exact ⟨eq_of_chain_eq he.isLeftNested he'.isLeftNested (Prod.ext hfirst hlinks), hst⟩

/-- The induction follows the expression, one form at a time. What is carried along is that each
operand of the chain is determined, because the operands of an operand in parentheses are shown
by its own chain. -/
theorem all_determined {e : Expr} (he : e.IsReadable) : (chain e).All Operand.Determined := by
  induction he with
  | @node e here inside ih =>
    have he : e.IsReadable := .node here inside
    have hdetermined : ∀ x ∈ e.operands, x.Determined := fun x hx =>
      determined_of_chain (inside x hx) (ih x hx)
    cases e with
    | range lo hi =>
      exact all_chain_join (k := .dots)
        (fun x hx => determined_parens (inside x hx) (hdetermined x hx)) ih
    | binary op l r =>
      exact all_chain_join (k := .op op)
        (fun x hx => determined_parens (inside x hx) (hdetermined x hx)) ih
    | const v =>
      refine all_chain_of_isAtom trivial ?_
      cases v with
      | int n => exact determined_int he
      | float x => cases here.1.1
      | str s => exact determined_str he
    | var n => exact all_chain_of_isAtom trivial (determined_var he)
    | collection es => exact all_chain_of_isAtom trivial (determined_collection he hdetermined)
    | app f args => exact all_chain_of_isAtom trivial (determined_app he hdetermined)
    | unary op x =>
      refine all_chain_of_isAtom trivial (determined_unary he ?_)
      have hx : x ∈ (unary op x).operands := by simp [operands]
      cases hparens : needsParens (unary op x) x with
      | true => exact determined_parens (inside x hx) (hdetermined x hx)
      | false =>
        have hchain := ih x hx
        rw [chain_of_isAtom (isAtom_of_unary here.1.2 hparens)] at hchain
        exact hchain.1
    | ite c t f =>
      exact all_chain_of_isAtom trivial (determined_ite he (hdetermined c (by simp [operands]))
        (hdetermined t (by simp [operands])) (hdetermined f (by simp [operands])))

/-- Readable expressions that are printed alike are the same. -/
theorem eq_of_print_eq {e e' : Expr} (he : e.IsReadable) (he' : e'.IsReadable)
    (h : e.print = e'.print) : e = e' :=
  (determined_of_chain he (all_determined he) e' [] [] he' (by simp [Closes]) (by simp [Closes])
    (by rw [h])).1

/-! ## Plain expressions as texts -/

/-- Regrouping keeps the names and the constants, and sets no sign before a range. -/
theorem isReadable_leftNested {e : Expr} (he : e.IsPlain) (hs : e.HasUnsignedRanges) :
    e.leftNested.IsReadable := by
  refine Everywhere.and ?_ (isLeftNested_leftNested e)
  have h := he.and hs
  clear he hs
  induction h with
  | @node e here inside ih =>
    have hall {p : Expr → Prop} {es : List Expr} (h : ∀ x ∈ es, p x.leftNested) :
        ∀ x ∈ leftNestedAll es, p x := by
      rw [leftNestedAll_eq_map]
      exact List.forall_mem_map.mpr h
    cases e with
    | const | var => exact .node here (by simp [leftNested, operands])
    | range | ite => exact .node here (by simpa [leftNested, operands] using ih)
    | collection es => exact .node here (hall ih)
    | app f args => exact .node here (hall ih)
    | binary op l r =>
      exact Everywhere.attach (fun _ _ _ => ⟨trivial, trivial⟩) (ih l (by simp [operands]))
        (ih r (by simp [operands]))
    | unary op x =>
      refine .node ⟨trivial, ?_⟩ (by simpa [leftNested, operands] using ih)
      cases x with
      | range lo hi => exact here.2
      | binary op l r =>
        obtain ⟨op', a, b, hattach, -⟩ := exists_attach_eq op l.leftNested r.leftNested
        change IsUnsignedRange (unary _ (attach op l.leftNested r.leftNested))
        rw [hattach]
        trivial
      | _ => trivial

/-- Plain expressions without signs before ranges are printed alike exactly if they differ in how
chains of operators of one level are grouped, and in nothing else. In particular, where no right
operand is an operator of the same level, the print tells the expression. -/
theorem print_eq_iff {e e' : Expr} (he : e.IsPlain) (he' : e'.IsPlain)
    (hs : e.HasUnsignedRanges) (hs' : e'.HasUnsignedRanges) :
    (e.print = e'.print ↔ e.leftNested = e'.leftNested) ∧
      (e.IsLeftNested → e'.IsLeftNested → e.print = e'.print → e = e') := by
  have hiff : e.print = e'.print ↔ e.leftNested = e'.leftNested := by
    constructor
    · intro h
      apply eq_of_print_eq (isReadable_leftNested he hs) (isReadable_leftNested he' hs')
      rw [print_leftNested, print_leftNested, h]
    · intro h
      rw [← print_leftNested e, h, print_leftNested]
  refine ⟨hiff, ?_⟩
  intro hl hl' h
  rw [← leftNested_of_isLeftNested hl, ← leftNested_of_isLeftNested hl']
  exact hiff.mp h

/-- The two groupings of `a - b - c` are printed alike, and `a - b * c` is not. -/
theorem print_eq_iff_of_subtraction :
    let left := binary .sub (binary .sub (var ⟨"a"⟩) (var ⟨"b"⟩)) (var ⟨"c"⟩)
    let right := binary .sub (var ⟨"a"⟩) (binary .sub (var ⟨"b"⟩) (var ⟨"c"⟩))
    let other := binary .sub (var ⟨"a"⟩) (binary .mul (var ⟨"b"⟩) (var ⟨"c"⟩))
    (left.IsPlain ∧ right.IsPlain ∧ other.IsPlain) ∧
      (left.HasUnsignedRanges ∧ right.HasUnsignedRanges ∧ other.HasUnsignedRanges) ∧
      (left.IsLeftNested ∧ other.IsLeftNested) ∧
      left.print = right.print ∧ left.print ≠ other.print := by
  intro left right other
  have ha : Name.IsPlain ⟨"a"⟩ := Name.isPlain_of_identifier rfl (by decide) (by simp)
  have hb : Name.IsPlain ⟨"b"⟩ := Name.isPlain_of_identifier rfl (by decide) (by simp)
  have hc : Name.IsPlain ⟨"c"⟩ := Name.isPlain_of_identifier rfl (by decide) (by simp)
  have hplain : left.IsPlain ∧ right.IsPlain ∧ other.IsPlain := by
    simp [left, right, other, IsPlainNode, ha, hb, hc]
  have hunsigned : left.HasUnsignedRanges ∧ right.HasUnsignedRanges ∧ other.HasUnsignedRanges := by
    simp [left, right, other, IsUnsignedRange]
  have hnested : left.IsLeftNested ∧ other.IsLeftNested := by
    simp [left, other, IsLeftNestedNode, BinaryOp.precedence]
  refine ⟨hplain, hunsigned, hnested, ?_, ?_⟩
  · exact (print_eq_iff hplain.1 hplain.2.1 hunsigned.1 hunsigned.2.1).1.mpr rfl
  · intro h
    have hsame := (print_eq_iff hplain.1 hplain.2.2 hunsigned.1 hunsigned.2.2).2 hnested.1
      hnested.2 h
    simp [left, other] at hsame

/-- The print does not show on which side a difference stands, on which the value depends. -/
theorem print_hides_grouping :
    let left := binary .sub (binary .sub (const (.int 3)) (const (.int 2))) (const (.int 1))
    let right := binary .sub (const (.int 3)) (binary .sub (const (.int 2)) (const (.int 1)))
    left.IsPlain ∧ right.IsPlain ∧ left.print = right.print ∧
      ∀ b, left.eval b = .ok (.scalar (.int 0)) ∧ right.eval b = .ok (.scalar (.int 2)) := by
  intro left right
  refine ⟨?_, ?_, by decide +kernel, fun b => ⟨rfl, rfl⟩⟩
  · simp [left, IsPlainNode]
  · simp [right, IsPlainNode]

/-- A sign before a range is printed like a sign before its lower end. -/
example : (unary .negative (range (var ⟨"a"⟩) (var ⟨"b"⟩))).print =
    (range (unary .negative (var ⟨"a"⟩)) (var ⟨"b"⟩)).print := by decide +kernel

end Expr

end AlgebraicModel
