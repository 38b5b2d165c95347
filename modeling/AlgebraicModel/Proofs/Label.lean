import AlgebraicModel.Diagnostic

/-!
# Labels stand once in front of details

A label can be put on an error when its message is made (`Label.report`) or later (`Label.attach`).
In either case a label that stands there already is left alone, so on the way of an error through
several places that attach one, the first puts it there and the others change nothing
(`Label.attach_attach`). `Label.Reports` says what becomes of a failure that is reported under a
label.

A message of a cause begins with a word of its own and never like a label (`Cause.Plain`), and then
it makes no difference whether the label is there from the beginning or is attached
(`Label.report_eq_attach`).
-/

set_option autoImplicit false

namespace AlgebraicModel

/-- The details of the error begin with a label. -/
def Error.IsLabelled (e : Error) : Prop := ∃ d, e.details = some d ∧ Label.isLabelled d = true

/-- Who words a failure: one of the causes of compilation, or code that the caller supplies. -/
inductive Author where
  | compiler | caller
deriving DecidableEq, Repr

namespace Label

/-- The label in front of details, or by itself where there are none. -/
def inFront (l : Label) : Option String → String
  | some d => l.front ++ ": " ++ d
  | none => l.front

/-- The error `e` is the failure `o` reported under the label. Its kind and its code are those of
the failure, and it has details. Where the failure had no label, this one has been put in front of
its details. Only details that the caller has worded may begin with a label already, and then the
error is the failure as it was. -/
structure Reports (l : Label) (author : Author) (o e : Error) : Prop where
  kind : e.kind = o.kind
  code : e.code = o.code
  present : ∃ d, e.details = some d
  marked : ¬ o.IsLabelled → e.details = some (l.inFront o.details)
  kept : o.IsLabelled → author = .caller ∧ e = o

/-! ## Attaching -/

theorem isLabelled_front_append (l : Label) (s : String) : isLabelled (l.front ++ s) = true := by
  rw [isLabelled, List.isPrefixOf_iff_prefix]
  simp only [front, String.toList_append, List.append_assoc]
  exact List.prefix_append _ _

theorem isLabelled_inFront (l : Label) (details : Option String) :
    isLabelled (l.inFront details) = true := by
  cases details with
  | none =>
    rw [inFront, ← String.append_empty (s := l.front)]
    exact l.isLabelled_front_append ""
  | some d =>
    rw [inFront, String.append_assoc]
    exact l.isLabelled_front_append (": " ++ d)

theorem attach_of_isLabelled (l : Label) {e : Error} (h : e.IsLabelled) : l.attach e = e := by
  obtain ⟨d, hd, hlabelled⟩ := h
  simp only [attach, hd, hlabelled, if_true]

theorem attach_of_not_isLabelled (l : Label) {e : Error} (h : ¬ e.IsLabelled) :
    l.attach e = ⟨e.kind, e.code, some (l.inFront e.details)⟩ := by
  -- without details there is nothing that could begin with a label
  cases hd : e.details with
  | none => simp only [attach, hd, inFront]
  | some d =>
    have hplain : ¬ isLabelled d = true := fun hlabelled => h ⟨d, hd, hlabelled⟩
    simp only [attach, hd, if_neg hplain, inFront]

theorem isLabelled_attach (l : Label) (e : Error) : (l.attach e).IsLabelled := by
  by_cases h : e.IsLabelled
  · rw [l.attach_of_isLabelled h]
    exact h
  · rw [l.attach_of_not_isLabelled h]
    exact ⟨_, rfl, l.isLabelled_inFront e.details⟩

/-- The label that was attached first is the one that stays. -/
@[simp] theorem attach_attach (l l' : Label) (e : Error) : l'.attach (l.attach e) = l.attach e :=
  l'.attach_of_isLabelled (l.isLabelled_attach e)

theorem reports_attach (l : Label) {author : Author} {o : Error}
    (h : author = .compiler → ¬ o.IsLabelled) : l.Reports author o (l.attach o) where
  kind := l.kind_attach o
  code := l.code_attach o
  present := by
    obtain ⟨d, hd, -⟩ := l.isLabelled_attach o
    exact ⟨d, hd⟩
  marked hplain := by rw [l.attach_of_not_isLabelled hplain]
  kept hlabelled := by
    -- no cause of compilation words its failure with a label
    refine ⟨?_, l.attach_of_isLabelled hlabelled⟩
    cases author with
    | compiler => exact absurd hlabelled (h rfl)
    | caller => rfl

/-! ## Messages -/

/-- Under one label an error tells the kind, the code and the message of its cause. -/
theorem report_eq_report_iff (l : Label) {φ ψ : Type} [Cause φ] [Cause ψ] {c : φ} {c' : ψ} :
    l.report c = l.report c' ↔ Cause.kind c = Cause.kind c' ∧ Cause.code c = Cause.code c' ∧
      Cause.message c = Cause.message c' := by
  simp only [report, error, Error.mk.injEq, Option.some.injEq, String.append_right_inj]

/-- The text begins with another character than a label does. -/
def BeginsPlain (d : String) : Prop := ∃ c, d.toList.head? = some c ∧ c ≠ 'I'

theorem beginsPlain_ofList {c : Char} (cs : List Char) (h : c ≠ 'I') :
    BeginsPlain (String.ofList (c :: cs)) :=
  ⟨c, by rw [String.toList_ofList, List.head?_cons], h⟩

theorem BeginsPlain.append {s : String} (h : BeginsPlain s) (t : String) :
    BeginsPlain (s ++ t) := by
  obtain ⟨c, hs, hc⟩ := h
  refine ⟨c, ?_, hc⟩
  rw [String.toList_append, List.head?_append, hs]
  rfl

theorem BeginsPlain.isLabelled_eq_false {d : String} (h : BeginsPlain d) :
    isLabelled d = false := by
  obtain ⟨c, hd, hc⟩ := h
  obtain ⟨cs, hcs⟩ := List.head?_eq_some_iff.mp hd
  rw [isLabelled, hcs]
  simp [opening, List.isPrefixOf, Ne.symm hc]

end Label

theorem Error.not_isLabelled_ofCause {φ : Type} [Cause φ] {c : φ}
    (h : Label.BeginsPlain (Cause.message c)) : ¬ (Error.ofCause c).IsLabelled := by
  rintro ⟨d, hd, hlabelled⟩
  cases hd
  rw [h.isLabelled_eq_false] at hlabelled
  cases hlabelled

/-- The messages of these causes never begin like a label. -/
class Cause.Plain (φ : Type) [Cause φ] : Prop where
  beginsPlain : ∀ c : φ, Label.BeginsPlain (Cause.message c)

namespace Label

variable {φ : Type} [Cause φ] [Cause.Plain φ]

theorem not_isLabelled_ofCause (c : φ) : ¬ (Error.ofCause c).IsLabelled :=
  Error.not_isLabelled_ofCause (Cause.Plain.beginsPlain c)

/-- A message that is made with the label is the message with the label attached. -/
theorem report_eq_attach (l : Label) (c : φ) : l.report c = l.attach (.ofCause c) :=
  (l.attach_of_not_isLabelled (not_isLabelled_ofCause c)).symm

end Label

end AlgebraicModel
