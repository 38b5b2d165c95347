import AlgebraicModel.Expr.Basic
import AlgebraicModel.Text.Quoted

/-!
# Printing index expressions

`Expr.print` writes an expression as a reader would. An operand stands in parentheses where
`Expr.needsParens` asks for it: below an operator that binds more tightly, and where a range or a
conditional is an operand.
-/

set_option autoImplicit false

namespace AlgebraicModel.Expr

/-- Whether an operand stands in parentheses below the given expression. -/
def needsParens (parent child : Expr) : Bool :=
  match parent, child with
  | range _ _, range _ _ | range _ _, binary _ _ _ | range _ _, ite _ _ _ => true
  | unary _ _, binary _ _ _ => true
  | binary op _ _, binary op' _ _ => op'.precedence < op.precedence
  | binary _ _ _, range _ _ | binary _ _ _, ite _ _ _ => true
  | _, _ => false

/-- A printed operand, in parentheses if the flag is set. -/
def parenthesized (parens : Bool) (s : String) : String :=
  if parens then "(" ++ s ++ ")" else s

mutual

/-- The expression as text. -/
def print : Expr → String
  | const (.str s) => Text.quoted s
  | const v => v.text
  | var n => n.text
  | range lo hi =>
    parenthesized (needsParens (range lo hi) lo) lo.print ++ ".." ++
      parenthesized (needsParens (range lo hi) hi) hi.print
  | collection elements => "\x7b" ++ String.intercalate ", " (printAll elements) ++ "\x7d"
  | app f args => f.text ++ "(" ++ String.intercalate ", " (printAll args) ++ ")"
  | unary op e => op.symbol ++ parenthesized (needsParens (unary op e) e) e.print
  | binary op l r =>
    parenthesized (needsParens (binary op l r) l) l.print ++ " " ++ op.symbol ++ " " ++
      parenthesized (needsParens (binary op l r) r) r.print
  | ite c t f => "if (" ++ c.print ++ ") then (" ++ t.print ++ ") else (" ++ f.print ++ ")"

/-- The texts of a list of expressions. -/
def printAll : List Expr → List String
  | [] => []
  | e :: es => e.print :: printAll es

end

theorem printAll_eq_map (es : List Expr) : printAll es = es.map print := by
  induction es with
  | nil => rfl
  | cons e es ih => simp [printAll, ih]

example : (binary .mul (binary .add (var ⟨"a"⟩) (const (.int 1))) (const (.int 2))).print =
    "(a + 1) * 2" := by decide +kernel

example : (range (var ⟨"i"⟩) (binary .sub (var ⟨"N"⟩) (const (.int 1)))).print = "i..(N - 1)" := by
  decide +kernel

end AlgebraicModel.Expr
