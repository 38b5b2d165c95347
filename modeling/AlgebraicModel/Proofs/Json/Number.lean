import AlgebraicModel.Json.Reader
import AlgebraicModel.Json.Writer
import Mathlib.Data.List.Basic

/-!
# Numbers are read back as they were written

A number is written as digits, perhaps with a point and digits behind it, perhaps with an exponent,
and a sign in front (`partChars`). The reader takes these parts one by one, each up to where the
next one begins (`read?_partChars`). A whole number has no other part than its digits; a numeral has a
point or an exponent, so it is not mistaken for a whole number, and its places are the digits behind
the point. So every number is read back in the form that it was written in (`read?_write`), as long
as what follows does not go on with a number (`EndsNumber`).
-/

set_option autoImplicit false

namespace AlgebraicModel

namespace JsonNumber

/-! ## Digits -/

/-- One digit or more. -/
structure IsDigits (ds : List Char) : Prop where
  ne_nil : ds ≠ []
  digit : ∀ c ∈ ds, c.isDigit = true

theorem IsDigits.isDigit_of_mem_head? {ds rest : List Char} (h : IsDigits ds) :
    ∀ c ∈ (ds ++ rest).head?, c.isDigit = true := by
  obtain ⟨d, ds, rfl⟩ := List.exists_cons_of_ne_nil h.ne_nil
  intro c hc
  cases hc
  exact h.digit d List.mem_cons_self

theorem isDigits_toDigits (n : Nat) : IsDigits (Nat.toDigits 10 n) where
  ne_nil := Nat.toDigits_ne_nil
  digit _ hc := Nat.isDigit_of_mem_toDigits (by decide) (by decide) hc

/-- The text does not go on with a digit. -/
def EndsDigits (cs : List Char) : Prop := ∀ c ∈ cs.head?, c.isDigit = false

theorem takeWhile_of_endsDigits {cs : List Char} (h : EndsDigits cs) :
    cs.takeWhile Char.isDigit = [] ∧ cs.dropWhile Char.isDigit = cs := by
  cases cs with
  | nil => exact ⟨rfl, rfl⟩
  | cons c cs =>
    have hc : c.isDigit = false := h c rfl
    constructor
    · rw [List.takeWhile_cons, hc]
      rfl
    · rw [List.dropWhile_cons, hc]
      rfl

theorem digits?_append {ds rest : List Char} (hds : IsDigits ds) (hrest : EndsDigits rest) :
    digits? (ds ++ rest) = some (ds, rest) := by
  obtain ⟨htake, hdrop⟩ := takeWhile_of_endsDigits hrest
  have hall : ∀ c ∈ ds, c.isDigit = true := hds.digit
  have hempty : ds.isEmpty = false := by simpa using hds.ne_nil
  rw [digits?, List.takeWhile_append_of_pos hall, htake, List.append_nil,
    List.dropWhile_append_of_pos hall, hdrop, hempty]
  rfl

/-- The digits of a number do not begin with zero, unless that is all. -/
def NoLeadingZero (ds : List Char) : Prop := ds = ['0'] ∨ ∀ cs, ds ≠ '0' :: cs

theorem wholeDigits?_append {ds rest : List Char} (hds : IsDigits ds) (hzero : NoLeadingZero ds)
    (hrest : EndsDigits rest) : wholeDigits? (ds ++ rest) = some (ds, rest) := by
  rcases hzero with rfl | hzero
  · rfl
  · obtain ⟨c, cs, rfl⟩ := List.exists_cons_of_ne_nil hds.ne_nil
    have hc : c ≠ '0' := by
      rintro rfl
      exact hzero cs rfl
    rw [← digits?_append hds hrest, List.cons_append, wholeDigits?]
    rintro _ h
    exact absurd (List.cons.inj h).1 hc

theorem head?_toDigits_ne_zero {n : Nat} (h : n ≠ 0) : (Nat.toDigits 10 n).head? ≠ some '0' := by
  induction n using Nat.strongRecOn with
  | ind n ih =>
    by_cases hn : n < 10
    · have hdigit : ∀ d < 10, d ≠ 0 → [d.digitChar].head? ≠ some '0' := by decide
      rw [Nat.toDigits_of_lt_base hn]
      exact hdigit n hn h
    · -- the leading digit is that of the number without its last digit
      have hdiv : (Nat.toDigits 10 (n / 10)).head? ≠ some '0' := ih (n / 10) (by omega) (by omega)
      rw [Nat.toDigits_eq_if (by decide), if_neg hn, List.head?_append_of_ne_nil]
      · exact hdiv
      · exact Nat.toDigits_ne_nil

theorem noLeadingZero_toDigits (n : Nat) : NoLeadingZero (Nat.toDigits 10 n) := by
  by_cases h : n = 0
  · subst h
    exact .inl rfl
  · refine .inr ?_
    intro cs hcs
    apply head?_toDigits_ne_zero h
    rw [hcs]
    rfl

/-! ## Parts -/

/-- A point and the digits behind it, if there are any. -/
def fractionChars : Option (List Char) → List Char
  | some ds => '.' :: ds
  | none => []

/-- An exponent behind its letter, if there is one. -/
def exponentPart : Option Int → List Char
  | some e => Numeral.exponentChars e
  | none => []

/-- A number without its sign. -/
def partChars (before : List Char) (behind : Option (List Char)) (exponent : Option Int) :
    List Char :=
  before ++ (fractionChars behind ++ exponentPart exponent)

/-- The text does not go on with a number. -/
def EndsNumber (cs : List Char) : Prop :=
  ∀ c ∈ cs.head?, c.isDigit = false ∧ c ≠ '.' ∧ c ≠ 'e' ∧ c ≠ 'E'

theorem EndsNumber.endsDigits {cs : List Char} (h : EndsNumber cs) : EndsDigits cs :=
  fun c hc => (h c hc).1

theorem endsDigits_fractionChars {ds rest : List Char} :
    EndsDigits (fractionChars (some ds) ++ rest) := by
  intro c hc
  cases hc
  rfl

theorem sign?_sign_append {negative : Bool} {cs : List Char}
    (h : ∀ c ∈ cs.head?, c.isDigit = true) :
    sign? (sign negative ++ cs) = (negative, cs) := by
  cases negative with
  | true => rfl
  | false =>
    cases cs with
    | nil => rfl
    | cons c cs =>
      have hc : c ≠ '-' := by
        rintro rfl
        cases h '-' rfl
      change sign? (c :: cs) = _
      rw [sign?]
      rintro _ heq
      exact absurd (List.cons.inj heq).1 hc

theorem fraction?_of_ne_point {cs : List Char} (h : ∀ c ∈ cs.head?, c ≠ '.') :
    fraction? cs = some (none, cs) := by
  cases cs with
  | nil => rfl
  | cons c cs =>
    rw [fraction?]
    rintro _ heq
    exact absurd (List.cons.inj heq).1 (h c rfl)

theorem fraction?_append {behind : Option (List Char)} {rest : List Char}
    (hbehind : ∀ ds ∈ behind, IsDigits ds) (hdigits : EndsDigits rest)
    (hpoint : ∀ c ∈ rest.head?, c ≠ '.') :
    fraction? (fractionChars behind ++ rest) = some (behind, rest) := by
  cases behind with
  | none => exact fraction?_of_ne_point hpoint
  | some ds =>
    change (digits? (ds ++ rest)).bind _ = _
    rw [digits?_append (hbehind ds rfl) hdigits]
    rfl

theorem signedExponent?_of_ne_plus {cs : List Char} (h : ∀ c ∈ cs.head?, c ≠ '+') :
    signedExponent? cs = do
      let (ds, rest) ← digits? (sign? cs).2
      let n : Int := Nat.ofDigitChars 10 ds 0
      return (if (sign? cs).1 then -n else n, rest) := by
  rw [signedExponent?]
  rintro cs' rfl
  exact h '+' rfl rfl

theorem exponentChars_eq (e : Int) :
    Numeral.exponentChars e = 'e' :: (sign (e < 0) ++ Nat.toDigits 10 e.natAbs) := by
  simp [Numeral.exponentChars, sign]

theorem signedExponent?_append {e : Int} {rest : List Char} (hrest : EndsDigits rest) :
    signedExponent? (sign (e < 0) ++ (Nat.toDigits 10 e.natAbs ++ rest)) = some (e, rest) := by
  have hdigits := isDigits_toDigits e.natAbs
  have hplus : ∀ c ∈ (sign (e < 0) ++ (Nat.toDigits 10 e.natAbs ++ rest)).head?, c ≠ '+' := by
    rintro c hc rfl
    by_cases he : e < 0
    · rw [decide_eq_true he] at hc
      cases hc
    · rw [decide_eq_false he] at hc
      cases hdigits.isDigit_of_mem_head? '+' hc
  rw [signedExponent?_of_ne_plus hplus, sign?_sign_append hdigits.isDigit_of_mem_head?,
    digits?_append hdigits hrest]
  change some (_, rest) = _
  rw [Nat.ofDigitChars_ten_toDigits]
  by_cases he : e < 0
  · rw [decide_eq_true he, if_pos rfl]
    congr 2
    omega
  · rw [decide_eq_false he, if_neg Bool.false_ne_true]
    congr 2
    omega

theorem exponent?_append {exponent : Option Int} {rest : List Char} (hrest : EndsNumber rest) :
    exponent? (exponentPart exponent ++ rest) = some (exponent, rest) := by
  cases exponent with
  | some e =>
    rw [exponentPart, exponentChars_eq, List.cons_append, List.append_assoc, exponent?,
      signedExponent?_append hrest.endsDigits]
    rfl
  | none =>
    change exponent? rest = _
    cases rest with
    | nil => rfl
    | cons c cs =>
      obtain ⟨-, -, he, hE⟩ := hrest c rfl
      rw [exponent?]
      · rintro _ heq
        exact absurd (List.cons.inj heq).1 he
      · rintro _ heq
        exact absurd (List.cons.inj heq).1 hE

/-- Neither a point nor a digit follows the fraction. -/
theorem ne_of_mem_head?_exponentPart (exponent : Option Int) {rest : List Char}
    (hrest : EndsNumber rest) :
    ∀ c ∈ (exponentPart exponent ++ rest).head?, c.isDigit = false ∧ c ≠ '.' := by
  cases exponent with
  | some e =>
    rintro c hc
    cases hc
    decide
  | none =>
    intro c hc
    exact ⟨(hrest c hc).1, (hrest c hc).2.1⟩

/-- The reader takes the parts of a number one by one. -/
theorem read?_partChars {negative : Bool} {before : List Char} {behind : Option (List Char)}
    {exponent : Option Int} {rest : List Char} (hbefore : IsDigits before)
    (hzero : NoLeadingZero before) (hbehind : ∀ ds ∈ behind, IsDigits ds)
    (hrest : EndsNumber rest) :
    read? (sign negative ++ (partChars before behind exponent ++ rest)) =
      some (ofParts negative before behind exponent, rest) := by
  have hexponent := ne_of_mem_head?_exponentPart exponent hrest
  have hends : EndsDigits (fractionChars behind ++ (exponentPart exponent ++ rest)) := by
    cases behind with
    | some ds => exact endsDigits_fractionChars
    | none => exact fun c hc => (hexponent c hc).1
  have hfraction := fraction?_append hbehind (fun c hc => (hexponent c hc).1)
    (fun c hc => (hexponent c hc).2)
  rw [partChars, List.append_assoc, List.append_assoc, read?,
    sign?_sign_append hbefore.isDigit_of_mem_head?]
  simp only [wholeDigits?_append hbefore hzero hends, hfraction, exponent?_append hrest,
    Option.bind_eq_bind, Option.bind_some]
  rfl

/-! ## Written numbers -/

/-- A whole number is its digits, and it is read back as such. -/
theorem ofParts_toDigits (n : Int) :
    ofParts (n < 0) (Nat.toDigits 10 n.natAbs) none none = whole n := by
  rw [ofParts, Nat.ofDigitChars_ten_toDigits]
  by_cases hn : n < 0
  · have hne : n.natAbs ≠ 0 := by omega
    rw [decide_eq_true hn, if_pos rfl, if_neg hne]
    congr 1
    omega
  · rw [decide_eq_false hn, if_neg Bool.false_ne_true]
    congr 1
    omega

/-- A numeral without places is written as its digits. -/
theorem positional_of_zero (n : Nat) :
    (Decimal.mk n (-(0 : Nat))).positional = Nat.toDigits 10 n := by
  simp [Decimal.positional, Decimal.split]

/-- The digits of a numeral, with zeros in front so that there is one before the point. -/
def padded (n places : Nat) : List Char :=
  List.replicate (places + 1 - (Nat.toDigits 10 n).length) '0' ++ Nat.toDigits 10 n

theorem lt_length_padded (n places : Nat) : places < (padded n places).length := by
  rw [padded, List.length_append, List.length_replicate]
  omega

theorem ofDigitChars_padded (n places : Nat) : Nat.ofDigitChars 10 (padded n places) 0 = n := by
  rw [padded, Nat.ofDigitChars_append, Nat.ofDigitChars_replicate_zero, Nat.mul_zero,
    Nat.ofDigitChars_ten_toDigits]

theorem digit_of_mem_padded {n places : Nat} : ∀ c ∈ padded n places, c.isDigit = true := by
  intro c hc
  rcases List.mem_append.mp hc with hc | hc
  · rw [List.eq_of_mem_replicate hc]
    rfl
  · exact (isDigits_toDigits n).digit c hc

theorem length_padded_of_le {n places : Nat} (h : (Nat.toDigits 10 n).length ≤ places) :
    (padded n places).length = places + 1 := by
  rw [padded, List.length_append, List.length_replicate]
  omega

theorem padded_of_lt {n places : Nat} (h : places < (Nat.toDigits 10 n).length) :
    padded n places = Nat.toDigits 10 n := by
  rw [padded, Nat.sub_eq_zero_of_le h, List.replicate_zero, List.nil_append]

/-- What stands before the point begins with zero only if that is all. -/
theorem noLeadingZero_take_padded {n places : Nat} (h : places ≠ 0) :
    NoLeadingZero ((padded n places).take ((padded n places).length - places)) := by
  rcases Nat.lt_or_ge places (Nat.toDigits 10 n).length with hlength | hlength
  · -- some digits stand before the point, and the first of them is the first of the number
    have hne : n ≠ 0 := by
      rintro rfl
      have hone : (Nat.toDigits 10 0).length = 1 := rfl
      omega
    rw [padded_of_lt hlength]
    refine .inr ?_
    intro cs hcs
    apply head?_toDigits_ne_zero hne
    rw [← List.take_append_drop ((Nat.toDigits 10 n).length - places) (Nat.toDigits 10 n), hcs]
    rfl
  · -- all digits stand behind the point, and there is a single zero before it
    refine .inl ?_
    have hpad : places + 1 - (Nat.toDigits 10 n).length =
        places - (Nat.toDigits 10 n).length + 1 := by omega
    rw [length_padded_of_le hlength, Nat.add_sub_cancel_left, padded, hpad, List.replicate_succ]
    rfl

/-- A numeral with places is written with a point, as many digits behind it as it has places. -/
theorem exists_positional {n places : Nat} (h : places ≠ 0) :
    ∃ before behind, (Decimal.mk n (-(places : Int))).positional = before ++ '.' :: behind ∧
      before ++ behind = padded n places ∧ behind.length = places ∧ IsDigits before ∧
      NoLeadingZero before ∧ IsDigits behind := by
  have hlength := lt_length_padded n places
  obtain ⟨count, hcount⟩ : ∃ count, count = (padded n places).length - places := ⟨_, rfl⟩
  have hbehind : ((padded n places).drop count).length = places := by
    rw [List.length_drop]
    omega
  have hsplit : (Decimal.mk n (-(places : Int))).split =
      ((padded n places).take count, (padded n places).drop count) := by
    have hnegative : ¬ (0 : Int) ≤ -(places : Int) := by omega
    rw [Decimal.split, if_neg hnegative, hcount, padded]
    simp only [Int.neg_neg, Int.toNat_natCast]
  have hempty : ((padded n places).drop count).isEmpty = false := by
    rw [List.isEmpty_eq_false_iff, ← List.length_pos_iff]
    omega
  refine ⟨(padded n places).take count, (padded n places).drop count, ?_,
    List.take_append_drop _ _, hbehind, ⟨?_, ?_⟩, hcount ▸ noLeadingZero_take_padded h, ⟨?_, ?_⟩⟩
  · rw [Decimal.positional, hsplit]
    dsimp only
    rw [hempty]
    rfl
  · rw [← List.length_pos_iff, List.length_take]
    omega
  · intro c hc
    exact digit_of_mem_padded c (List.mem_of_mem_take hc)
  · exact List.isEmpty_eq_false_iff.mp hempty
  · intro c hc
    exact digit_of_mem_padded c (List.mem_of_mem_drop hc)

/-- A numeral is its digits, with a point or an exponent or both, and is read back as such. -/
theorem exists_partChars (negative : Bool) (x : Numeral) :
    ∃ before behind exponent, x.chars = partChars before behind exponent ∧
      ofParts negative before behind exponent = decimal negative x ∧
      IsDigits before ∧ NoLeadingZero before ∧ ∀ ds ∈ behind, IsDigits ds := by
  obtain ⟨n, places, e⟩ := x
  by_cases hplaces : places = 0
  · -- without a point there is an exponent
    subst hplaces
    refine ⟨Nat.toDigits 10 n, none, some e, ?_, ?_, isDigits_toDigits n,
      noLeadingZero_toDigits n, fun ds hds => by cases hds⟩
    · rw [Numeral.chars, positional_of_zero, if_neg (fun h => h.2 rfl)]
      rfl
    · rw [ofParts, Option.getD_none, List.append_nil, Nat.ofDigitChars_ten_toDigits]
      · rfl
      · rintro - ⟨⟩
  · obtain ⟨before, behind, hchars, hpadded, hlength, hbefore, hzero, hbehind⟩ :=
      exists_positional hplaces
    have hvalue : ∀ exponent : Option Int, exponent.getD 0 = e →
        ofParts negative before (some behind) exponent = decimal negative ⟨n, places, e⟩ := by
      intro exponent hexponent
      rw [ofParts, Option.getD_some, hpadded, ofDigitChars_padded, hlength, hexponent]
      intro h
      cases h
    by_cases he : e = 0
    · refine ⟨before, some behind, none, ?_, hvalue none he.symm, hbefore, hzero, ?_⟩
      · rw [Numeral.chars, hchars, if_pos ⟨he, hplaces⟩, List.append_nil, partChars,
          exponentPart, List.append_nil]
        rfl
      · rintro ds ⟨⟩
        exact hbehind
    · refine ⟨before, some behind, some e, ?_, hvalue (some e) rfl, hbefore, hzero, ?_⟩
      · rw [Numeral.chars, hchars, if_neg (fun h => he h.1), List.append_assoc]
        rfl
      · rintro ds ⟨⟩
        exact hbehind

/-- A number is read back in the form in which it was written. -/
theorem read?_write (n : JsonNumber) {rest : List Char} (hrest : EndsNumber rest) :
    read? (n.write ++ rest) = some (n, rest) := by
  cases n with
  | whole n =>
    have hchars : partChars (Nat.toDigits 10 n.natAbs) none none = Nat.toDigits 10 n.natAbs := by
      rw [partChars, fractionChars, exponentPart, List.append_nil, List.append_nil]
    rw [write, List.append_assoc, ← hchars, read?_partChars (isDigits_toDigits _)
      (noLeadingZero_toDigits _) (fun ds hds => by cases hds) hrest, ofParts_toDigits]
  | decimal negative x =>
    obtain ⟨before, behind, exponent, hchars, hparts, hbefore, hzero, hbehind⟩ :=
      exists_partChars negative x
    rw [write, List.append_assoc, hchars, read?_partChars hbefore hzero hbehind hrest, hparts]

end JsonNumber

end AlgebraicModel
