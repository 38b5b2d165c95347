import AlgebraicModel.Proofs.Expr.Chain

/-!
# The forms of an operand

An expression is plain if its constants are non-negative integers or texts and its names are told
from what is printed around them, as every identifier is (`Name.isPlain_of_identifier`). An operand
of such an expression is a number, a quoted text, a word, a list in braces, a sign with its operand
or an expression in parentheses, and its first character shows which (`Operand.exists_chars_cons`).
So two operands with which one text begins have one form (`Operand.exists_hasForm`).
-/

set_option autoImplicit false

namespace AlgebraicModel

/-! ## Plain expressions -/

/-- The characters with which printing begins, separates or ends the parts of an expression. -/
def marks : List Char := [' ', '(', ')', '\x7b', '\x7d', ',', '.', '"', '+', '-', '!']

/-- A character that can stand in a name and is not mistaken for a part of the print around it. -/
def isNameChar (c : Char) : Bool := !marks.contains c

/-- A name that is told from everything else in an expression: it does not begin like a number, and
has none of the marks. -/
structure Name.IsPlain (n : Name) : Prop where
  begins : ∃ c cs, n.text.toList = c :: cs ∧ c.isDigit = false
  chars : ∀ c ∈ n.text.toList, isNameChar c = true

theorem isNameChar_of_alphanumeric {c : Char} (h : c.isAlphanum = true ∨ c = '_') :
    isNameChar c = true := by
  have hmarks : (marks.all fun m => !(m.isAlphanum || m == '_')) = true := by decide
  have hmem : c ∉ marks := by
    intro hc
    have hmark := List.all_eq_true.mp hmarks c hc
    rcases h with h | rfl
    · simp [h] at hmark
    · cases hmark
  simpa [isNameChar] using hmem

/-- No letter is a digit. -/
theorem not_isDigit_of_isAlpha {c : Char} (h : c.isAlpha = true) : c.isDigit = false := by
  have halpha : c.isAlpha = (decide (65 ≤ c.val ∧ c.val ≤ 90) ||
      decide (97 ≤ c.val) && decide (c.val ≤ 122)) := rfl
  have hdigit : c.isDigit = (decide (48 ≤ c.val) && decide (c.val ≤ 57)) := rfl
  rw [halpha] at h
  rw [hdigit]
  simp only [Bool.or_eq_true, Bool.and_eq_true, decide_eq_true_eq, Bool.and_eq_false_iff,
    decide_eq_false_iff_not, UInt32.le_iff_toNat_le, UInt32.reduceToNat] at h ⊢
  omega

/-- Every identifier is plain: a letter or an underscore, and letters, digits and underscores. -/
theorem Name.isPlain_of_identifier {n : Name} {c : Char} {cs : List Char}
    (htext : n.text.toList = c :: cs) (hc : c.isAlpha = true ∨ c = '_')
    (hcs : ∀ d ∈ cs, d.isAlphanum = true ∨ d = '_') : n.IsPlain where
  begins := by
    refine ⟨c, cs, htext, ?_⟩
    rcases hc with hc | rfl
    · exact not_isDigit_of_isAlpha hc
    · rfl
  chars := by
    rw [htext]
    have hfirst : c.isAlphanum = true ∨ c = '_' := by
      rcases hc with hc | hc
      · exact .inl (by simp [Char.isAlphanum, hc])
      · exact .inr hc
    intro d hd
    rcases List.mem_cons.mp hd with rfl | hd
    · exact isNameChar_of_alphanumeric hfirst
    · exact isNameChar_of_alphanumeric (hcs d hd)

namespace Expr

/-- A constant is a non-negative integer or a text, and a name is plain. -/
def IsPlainNode : Expr → Prop
  | const (.int n) => 0 ≤ n.toInt
  | const (.float _) => False
  | var n => n.IsPlain
  | app f _ => f.IsPlain
  | _ => True

/-- All constants are non-negative integers or texts, and all names are plain. -/
abbrev IsPlain : Expr → Prop := Everywhere IsPlainNode

/-- The expression is not a sign before a range. -/
def IsUnsignedRange : Expr → Prop
  | unary _ (range _ _) => False
  | _ => True

/-- No sign stands directly before a range. -/
abbrev HasUnsignedRanges : Expr → Prop := Everywhere IsUnsignedRange

/-- All that is asked of an expression for its print to be read in one way only. -/
def IsReadableNode (e : Expr) : Prop := (IsPlainNode e ∧ IsUnsignedRange e) ∧ IsLeftNestedNode e

/-- A plain expression without signs before ranges whose chains are grouped to the left. -/
abbrev IsReadable : Expr → Prop := Everywhere IsReadableNode

theorem IsReadable.isLeftNested {e : Expr} (h : e.IsReadable) : e.IsLeftNested :=
  h.mono fun _ hx => hx.2

/-! ## Operands -/

/-- An operand of a readable expression. -/
structure Operand.IsReadable (x : Operand) : Prop where
  atom : x.parens = false → x.expr.IsAtom
  readable : x.expr.IsReadable

theorem Operand.isReadable_parens {e : Expr} (h : e.IsReadable) : Operand.IsReadable ⟨true, e⟩ :=
  ⟨by simp, h⟩

theorem Operand.isReadable_bare {e : Expr} (h : e.IsReadable) (hatom : e.IsAtom) :
    Operand.IsReadable ⟨false, e⟩ :=
  ⟨fun _ => hatom, h⟩

theorem all_chain {e : Expr} (he : e.IsReadable) : (chain e).All Operand.IsReadable := by
  induction he with
  | @node e here inside ih =>
    obtain ⟨k, l, r, rfl⟩ | hatom := e.eq_join_or_isAtom
    · exact all_chain_join (fun x hx => Operand.isReadable_parens (inside x hx)) ih
    · exact all_chain_of_isAtom hatom (Operand.isReadable_bare (.node here inside) hatom)

/-! ## Forms -/

/-- The forms of an operand, which its first character shows. -/
inductive Operand.Form where
  | number | quoted | word | braces | sign | parens

/-- The form that begins with a character. -/
def formOf (c : Char) : Operand.Form :=
  if c.isDigit then .number
  else if c = '"' then .quoted
  else if c = '\x7b' then .braces
  else if c = '(' then .parens
  else if c = '+' ∨ c = '-' ∨ c = '!' then .sign
  else .word

/-- The operands of each form. A name, an application and a conditional begin with a word. -/
inductive HasForm : Operand.Form → Operand → Prop
  | number (n : Int64) (h : 0 ≤ n.toInt) : HasForm .number ⟨false, const (.int n)⟩
  | quoted (s : String) : HasForm .quoted ⟨false, const (.str s)⟩
  | name {n : Name} (h : n.IsPlain) : HasForm .word ⟨false, var n⟩
  | application {f : Name} (h : f.IsPlain) (args : List Expr) : HasForm .word ⟨false, app f args⟩
  | conditional (c t f : Expr) : HasForm .word ⟨false, ite c t f⟩
  | braces (elements : List Expr) : HasForm .braces ⟨false, collection elements⟩
  | sign (op : UnaryOp) (e : Expr) : HasForm .sign ⟨false, unary op e⟩
  | parens (e : Expr) : HasForm .parens ⟨true, e⟩

/-! ## Texts of the forms -/

/-- The digits of a number that is not negative. -/
theorem print_int {n : Int64} (h : 0 ≤ n.toInt) :
    (const (.int n)).print.toList = Nat.toDigits 10 n.toInt.toNat := by
  rw [print, IndexValue.text, Int.toString_eq_repr, Int.repr_eq_if, if_pos h, Nat.toList_repr]
  exact fun s hs => by cases hs

/-- The texts of several expressions with a comma and a blank between them. -/
def listChars (es : List Expr) : List Char :=
  [',', ' '].intercalate (es.map fun e => e.print.toList)

theorem print_collection (es : List Expr) :
    (collection es).print.toList = '\x7b' :: (listChars es ++ ['\x7d']) := by
  simp [print, listChars, printAll_eq_map, Function.comp_def]

theorem print_unary (op : UnaryOp) (e : Expr) :
    (unary op e).print.toList =
      op.symbol.toList ++ Operand.chars ⟨needsParens (unary op e) e, e⟩ := by
  simp [print, Operand.chars]

/-- The word with which a name, an application or a conditional begins. -/
def word : Expr → List Char
  | var n => n.text.toList
  | app f _ => f.text.toList
  | ite _ _ _ => "if".toList
  | _ => []

/-- What stands behind the word. -/
def afterWord : Expr → List Char
  | app _ args => '(' :: (listChars args ++ [')'])
  | ite c t f =>
    ' ' :: '(' :: (c.print.toList ++ (") then (".toList ++ (t.print.toList ++ (") else (".toList ++
      (f.print.toList ++ [')'])))))
  | _ => []

theorem print_var (n : Name) : (var n).print.toList = word (var n) ++ afterWord (var n) := by
  simp [print, word, afterWord]

theorem print_app (f : Name) (args : List Expr) :
    (app f args).print.toList = word (app f args) ++ afterWord (app f args) := by
  simp [print, word, afterWord, listChars, printAll_eq_map, Function.comp_def]

theorem print_ite (c t f : Expr) :
    (ite c t f).print.toList = word (ite c t f) ++ afterWord (ite c t f) := by
  simp [print, word, afterWord]

/-! ## First characters -/

/-- The first character of a number. -/
theorem formOf_of_isDigit {c : Char} (h : c.isDigit = true) :
    formOf c = .number ∧ c ≠ ')' ∧ c ≠ '\x7d' := by
  refine ⟨by simp [formOf, h], ?_, ?_⟩ <;> rintro rfl <;> cases h

/-- The first character of a name. -/
theorem formOf_of_isNameChar {c : Char} (hc : isNameChar c = true) (hdigit : c.isDigit = false) :
    formOf c = .word ∧ c ≠ ')' ∧ c ≠ '\x7d' := by
  have hmem : c ∉ marks := by simpa [isNameChar] using hc
  simp only [marks, List.mem_cons, not_or] at hmem
  simp [formOf, hdigit, hmem]

/-- The first character of an operand shows its form and closes nothing. -/
theorem Operand.exists_chars_cons {x : Operand} (hx : x.IsReadable) :
    ∃ c cs, x.chars = c :: cs ∧ HasForm (formOf c) x ∧ c ≠ ')' ∧ c ≠ '\x7d' := by
  have hname {n : Name} (h : n.IsPlain) (hx : HasForm .word x) (rest : List Char) :
      ∃ c cs, n.text.toList ++ rest = c :: cs ∧ HasForm (formOf c) x ∧ c ≠ ')' ∧ c ≠ '\x7d' := by
    obtain ⟨c, cs, htext, hdigit⟩ := h.begins
    obtain ⟨hform, hne⟩ := formOf_of_isNameChar (h.chars c (by simp [htext])) hdigit
    exact ⟨c, cs ++ rest, by simp [htext], by rwa [hform], hne⟩
  obtain ⟨b, e⟩ := x
  cases b with
  | true => exact ⟨'(', _, Operand.chars_parens e, .parens e, by decide, by decide⟩
  | false =>
    have hplain : IsPlainNode e := hx.readable.here.1.1
    rw [Operand.chars_bare]
    cases e with
    | const v =>
      cases v with
      | int n =>
        obtain ⟨d, ds, hdigits⟩ :=
          List.exists_cons_of_ne_nil (Nat.toDigits_ne_nil (b := 10) (n := n.toInt.toNat))
        have hd : d ∈ Nat.toDigits 10 n.toInt.toNat := by
          rw [hdigits]
          exact List.mem_cons_self
        obtain ⟨hform, hne⟩ :=
          formOf_of_isDigit (Nat.isDigit_of_mem_toDigits (by decide) (by decide) hd)
        exact ⟨d, ds, (print_int hplain).trans hdigits, by rw [hform]; exact .number n hplain, hne⟩
      | float x => cases hplain
      | str s => exact ⟨'"', _, String.toList_ofList, .quoted s, by decide, by decide⟩
    | var n =>
      rw [print_var]
      exact hname hplain (.name hplain) _
    | app f args =>
      rw [print_app]
      exact hname hplain (.application hplain args) _
    | collection es =>
      rw [print_collection]
      exact ⟨'\x7b', _, rfl, .braces es, by decide, by decide⟩
    | unary op e =>
      rw [print_unary]
      cases op <;> exact ⟨_, _, rfl, .sign _ e, by decide, by decide⟩
    | ite c t f =>
      rw [print_ite]
      exact ⟨'i', _, rfl, .conditional c t f, by decide, by decide⟩
    | range | binary => cases hx.atom rfl

/-- The first character of an expression closes nothing. -/
theorem exists_print_cons {e : Expr} (he : e.IsReadable) :
    ∃ c cs, e.print.toList = c :: cs ∧ c ≠ ')' ∧ c ≠ '\x7d' := by
  obtain ⟨c, cs, hc, -, hne⟩ := Operand.exists_chars_cons (all_chain he).1
  exact ⟨c, cs ++ linkChars (chain e).2, by rw [← chars_chain, Chain.chars, hc]; rfl, hne⟩

/-- Operands with which one text begins have one form. -/
theorem Operand.exists_hasForm {x y : Operand} (hx : x.IsReadable) (hy : y.IsReadable)
    {s t : List Char} (h : x.chars ++ s = y.chars ++ t) : ∃ f, HasForm f x ∧ HasForm f y := by
  obtain ⟨c, cs, hc, hxform, -⟩ := Operand.exists_chars_cons hx
  obtain ⟨d, ds, hd, hyform, -⟩ := Operand.exists_chars_cons hy
  rw [hc, hd] at h
  rw [← (List.cons.inj h).1] at hyform
  exact ⟨formOf c, hxform, hyform⟩

end Expr

end AlgebraicModel
