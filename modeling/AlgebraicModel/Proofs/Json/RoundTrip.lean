import AlgebraicModel.Proofs.Json.Number
import AlgebraicModel.Proofs.Json.Text

/-!
# Values are read back as they were written

`Json.write` writes a value without blanks, and `Json.read?` reads the value back from what was
written (`read?_write`). The reader sees the form of a value from its first character
(`exists_chars_cons`), and a comma or a closing bracket ends whatever stands before it, numbers
included. Elements and fields are read as far as their list goes, one after the other; the bound on
the steps of the reader is twice the number of characters, of which each nested value takes its own
(`value?_chars`).
-/

set_option autoImplicit false

namespace AlgebraicModel

namespace JsonNumber

/-- A number begins with a digit or a sign. -/
theorem exists_write_cons (n : JsonNumber) :
    ∃ c cs, n.write = c :: cs ∧ (c.isDigit = true ∨ c = '-') := by
  have hsigned : ∀ (negative : Bool) (ds rest : List Char), IsDigits ds →
      ∃ c cs, sign negative ++ (ds ++ rest) = c :: cs ∧ (c.isDigit = true ∨ c = '-') := by
    intro negative ds rest hds
    cases negative with
    | true => exact ⟨'-', ds ++ rest, rfl, .inr rfl⟩
    | false =>
      obtain ⟨d, ds, rfl⟩ := List.exists_cons_of_ne_nil hds.ne_nil
      exact ⟨d, ds ++ rest, rfl, .inl (hds.digit d List.mem_cons_self)⟩
  cases n with
  | whole n =>
    have hwhole := hsigned (n < 0) _ [] (isDigits_toDigits n.natAbs)
    rwa [List.append_nil] at hwhole
  | decimal negative x =>
    obtain ⟨before, behind, exponent, hchars, -, hbefore, -⟩ := exists_partChars negative x
    rw [write, hchars]
    exact hsigned negative before _ hbefore

theorem endsNumber_nil : EndsNumber [] := by
  intro c hc
  cases hc

end JsonNumber

namespace Json

open JsonNumber (EndsNumber)

/-! ## First characters -/

/-- A character with which a value can begin is no blank and closes nothing. -/
def Opens (c : Char) : Prop := isBlank c = false ∧ c ≠ ']' ∧ c ≠ '\x7d'

instance : DecidablePred Opens := fun _ => inferInstanceAs (Decidable (_ ∧ _ ∧ _))

/-- Whatever is no digit and no sign is not the first character of a number. -/
theorem ne_of_number {c d : Char} (h : c.isDigit = true ∨ c = '-')
    (hd : ¬ (d.isDigit = true ∨ d = '-')) : c ≠ d := by
  rintro rfl
  exact hd h

theorem opens_of_number {c : Char} (h : c.isDigit = true ∨ c = '-') : Opens c := by
  refine ⟨?_, ne_of_number h (by decide), ne_of_number h (by decide)⟩
  have hspace : c ≠ ' ' := ne_of_number h (by decide)
  have htab : c ≠ '\t' := ne_of_number h (by decide)
  have hnewline : c ≠ '\n' := ne_of_number h (by decide)
  have hreturn : c ≠ '\r' := ne_of_number h (by decide)
  simp only [isBlank, Bool.or_eq_false_iff, beq_eq_false_iff_ne]
  exact ⟨⟨⟨hspace, htab⟩, hnewline⟩, hreturn⟩

theorem exists_chars_cons (v : Json) : ∃ c cs, v.chars = c :: cs ∧ Opens c := by
  cases v with
  | null => exact ⟨'n', "ull".toList, rfl, by decide⟩
  | bool b =>
    cases b with
    | true => exact ⟨'t', "rue".toList, rfl, by decide⟩
    | false => exact ⟨'f', "alse".toList, rfl, by decide⟩
  | number n =>
    obtain ⟨c, cs, hwrite, hc⟩ := n.exists_write_cons
    exact ⟨c, cs, by rw [chars, hwrite], opens_of_number hc⟩
  | string s =>
    obtain ⟨cs, hcs, -⟩ := exists_string?_writeText s []
    rw [List.append_nil] at hcs
    exact ⟨'"', cs, by rw [chars, hcs], by decide⟩
  | array vs => exact ⟨'[', _, rfl, by decide⟩
  | object fields => exact ⟨'\x7b', _, rfl, by decide⟩

theorem skipBlanks_cons {c : Char} (h : isBlank c = false) (cs : List Char) :
    skipBlanks (c :: cs) = c :: cs := by
  rw [skipBlanks, List.dropWhile_cons, h]
  rfl

/-- Where a digit or a sign stands, there is a number. -/
theorem value?_of_number {c : Char} (h : c.isDigit = true ∨ c = '-') (steps : Nat)
    (cs : List Char) :
    value? (steps + 1) (c :: cs) = do
      let (n, rest) ← JsonNumber.read? (c :: cs)
      return (number n, rest) := by
  rw [value?, skipBlanks_cons (opens_of_number h).1]
  split
  case _ heq => exact absurd (List.cons.inj heq).1 (ne_of_number h (by decide))
  case _ heq => exact absurd (List.cons.inj heq).1 (ne_of_number h (by decide))
  case _ heq => exact absurd (List.cons.inj heq).1 (ne_of_number h (by decide))
  case _ heq => exact absurd (List.cons.inj heq).1 (ne_of_number h (by decide))
  case _ heq => exact absurd (List.cons.inj heq).1 (ne_of_number h (by decide))
  case _ heq => exact absurd (List.cons.inj heq).1 (ne_of_number h (by decide))
  case _ => rfl

/-- Behind an opening bracket stand elements, unless it is closed at once. -/
theorem value?_bracket {c : Char} (h : Opens c) (steps : Nat) (cs : List Char) :
    value? (steps + 1) ('[' :: c :: cs) = do
      let (vs, rest) ← elements? steps (c :: cs)
      return (array vs, rest) := by
  have hbracket : skipBlanks ('[' :: c :: cs) = '[' :: c :: cs := rfl
  have hfirst := skipBlanks_cons h.1 cs
  rw [value?, hbracket]
  split
  case h_2 rest heq =>
    obtain rfl := (List.cons.inj heq).2
    rw [hfirst]
    split
    case _ heq => exact absurd (List.cons.inj heq).1 h.2.1
    case _ => rfl
  case h_7 hnot _ _ _ _ => exact absurd rfl (hnot (c :: cs))
  -- no other form of value begins with a bracket
  all_goals
    rename_i heq
    exact absurd (List.cons.inj heq).1 (by decide)

/-- Behind an opening brace a quote begins the first field. -/
theorem value?_brace (steps : Nat) (cs : List Char) :
    value? (steps + 1) ('\x7b' :: '"' :: cs) = do
      let (fields, rest) ← fields? steps ('"' :: cs)
      return (object fields, rest) := rfl

/-! ## Lists -/

/-- The texts of a list, the first of which is not the only one. -/
theorem commaSeparated_cons_cons (s t : List Char) (ss : List (List Char)) :
    commaSeparated (s :: t :: ss) = s ++ ',' :: commaSeparated (t :: ss) := rfl

/-- A comma or a bracket ends a number. -/
theorem endsNumber_cons {c : Char} (h : c = ',' ∨ c = ']' ∨ c = '\x7d') (cs : List Char) :
    EndsNumber (c :: cs) := by
  rintro d ⟨⟩
  rcases h with rfl | rfl | rfl <;> decide

theorem elements?_last {steps : Nat} {v : Json} {cs rest : List Char}
    (hv : value? steps cs = some (v, ']' :: rest)) :
    elements? (steps + 1) cs = some ([v], rest) := by
  rw [elements?, hv]
  rfl

theorem elements?_comma {steps : Nat} {v : Json} {vs : List Json} {cs cs' rest : List Char}
    (hv : value? steps cs = some (v, ',' :: cs')) (hvs : elements? steps cs' = some (vs, rest)) :
    elements? (steps + 1) cs = some (v :: vs, rest) := by
  rw [elements?, hv]
  change (elements? steps cs').bind _ = _
  rw [hvs]
  rfl

theorem fields?_last {steps : Nat} {key : JsonText} {v : Json} {cs rest : List Char}
    (hv : value? steps cs = some (v, '\x7d' :: rest)) :
    fields? (steps + 1) (writeText key ++ ':' :: cs) = some ([(key, v)], rest) := by
  obtain ⟨cs', hkey, hread⟩ := exists_string?_writeText key (':' :: cs)
  rw [hkey, fields?]
  change (string? cs').bind _ = _
  rw [hread]
  change (value? steps cs).bind _ = _
  rw [hv]
  rfl

theorem fields?_comma {steps : Nat} {key : JsonText} {v : Json} {fields : List (JsonText × Json)}
    {cs cs' rest : List Char} (hv : value? steps cs = some (v, ',' :: cs'))
    (hfields : fields? steps cs' = some (fields, rest)) :
    fields? (steps + 1) (writeText key ++ ':' :: cs) = some ((key, v) :: fields, rest) := by
  obtain ⟨cs'', hkey, hread⟩ := exists_string?_writeText key (':' :: cs)
  rw [hkey, fields?]
  change (string? cs'').bind _ = _
  rw [hread]
  change (value? steps cs).bind _ = _
  rw [hv]
  change (fields? steps cs').bind _ = _
  rw [hfields]
  rfl

theorem exists_elementChars_cons (v : Json) (vs : List Json) :
    ∃ c cs, commaSeparated (elementChars (v :: vs)) = c :: cs ∧ Opens c := by
  obtain ⟨c, cs, hchars, hc⟩ := v.exists_chars_cons
  cases vs with
  | nil => exact ⟨c, cs, hchars, hc⟩
  | cons w vs =>
    refine ⟨c, cs ++ ',' :: commaSeparated (elementChars (w :: vs)), ?_, hc⟩
    rw [elementChars, elementChars, commaSeparated_cons_cons, hchars, List.cons_append]

theorem exists_fieldChars_cons (key : JsonText) (v : Json) (fields : List (JsonText × Json)) :
    ∃ cs, commaSeparated (fieldChars ((key, v) :: fields)) = '"' :: cs := by
  obtain ⟨cs, hkey, -⟩ := exists_string?_writeText key (':' :: v.chars)
  cases fields with
  | nil => exact ⟨cs, hkey⟩
  | cons field fields =>
    obtain ⟨key', w⟩ := field
    refine ⟨cs ++ ',' :: commaSeparated (fieldChars ((key', w) :: fields)), ?_⟩
    rw [fieldChars, fieldChars, commaSeparated_cons_cons, hkey, List.cons_append]

/-! ## Values -/

mutual

/-- A value is read back, with steps enough for its characters. -/
theorem value?_chars : ∀ (v : Json) (steps : Nat) (rest : List Char),
    2 * v.chars.length ≤ steps → EndsNumber rest →
      value? steps (v.chars ++ rest) = some (v, rest)
  | v, 0, rest, hsteps, _ => by
    obtain ⟨c, cs, hchars, -⟩ := v.exists_chars_cons
    rw [hchars, List.length_cons] at hsteps
    omega
  | null, steps + 1, rest, _, _ => rfl
  | bool true, steps + 1, rest, _, _ => rfl
  | bool false, steps + 1, rest, _, _ => rfl
  | number n, steps + 1, rest, _, hrest => by
    obtain ⟨c, cs, hwrite, hc⟩ := n.exists_write_cons
    have hread := n.read?_write hrest
    rw [hwrite, List.cons_append] at hread
    rw [chars, hwrite, List.cons_append, value?_of_number hc, hread]
    rfl
  | string s, steps + 1, rest, _, _ => by
    obtain ⟨cs, hcs, hread⟩ := exists_string?_writeText s rest
    rw [chars, hcs]
    change (string? cs).bind _ = _
    rw [hread]
    rfl
  | array [], steps + 1, rest, _, _ => rfl
  | array (v :: vs), steps + 1, rest, hsteps, _ => by
    rw [chars, List.length_cons, List.length_append, List.length_singleton] at hsteps
    have helements := elements?_chars v vs steps rest (by omega)
    obtain ⟨c, cs, hfirst, hc⟩ := exists_elementChars_cons v vs
    rw [chars, List.cons_append, List.append_assoc]
    change value? (steps + 1) ('[' :: (_ ++ ']' :: rest)) = _
    rw [hfirst, List.cons_append] at helements ⊢
    rw [value?_bracket hc, helements]
    rfl
  | object [], steps + 1, rest, _, _ => rfl
  | object ((key, v) :: fields), steps + 1, rest, hsteps, _ => by
    rw [chars, List.length_cons, List.length_append, List.length_singleton] at hsteps
    have hfields := fields?_chars key v fields steps rest (by omega)
    obtain ⟨cs, hfirst⟩ := exists_fieldChars_cons key v fields
    rw [chars, List.cons_append, List.append_assoc]
    change value? (steps + 1) ('\x7b' :: (_ ++ '\x7d' :: rest)) = _
    rw [hfirst, List.cons_append] at hfields ⊢
    rw [value?_brace, hfields]
    rfl

/-- The elements of an array are read back up to its bracket. -/
theorem elements?_chars : ∀ (v : Json) (vs : List Json) (steps : Nat) (rest : List Char),
    2 * (commaSeparated (elementChars (v :: vs))).length + 1 ≤ steps →
      elements? steps (commaSeparated (elementChars (v :: vs)) ++ ']' :: rest) =
        some (v :: vs, rest)
  | _, _, 0, _, hsteps => by omega
  | v, [], steps + 1, rest, hsteps => by
    rw [elementChars, elementChars, commaSeparated] at hsteps ⊢
    exact elements?_last
      (value?_chars v steps (']' :: rest) (by omega) (endsNumber_cons (.inr (.inl rfl)) rest))
  | v, w :: vs, steps + 1, rest, hsteps => by
    rw [elementChars, elementChars, commaSeparated_cons_cons, ← elementChars,
      List.length_append, List.length_cons] at hsteps
    rw [elementChars, elementChars, commaSeparated_cons_cons, ← elementChars, List.append_assoc]
    exact elements?_comma (value?_chars v steps _ (by omega) (endsNumber_cons (.inl rfl) _))
      (elements?_chars w vs steps rest (by omega))

/-- The fields of an object are read back up to its brace. -/
theorem fields?_chars : ∀ (key : JsonText) (v : Json) (fields : List (JsonText × Json))
    (steps : Nat) (rest : List Char),
    2 * (commaSeparated (fieldChars ((key, v) :: fields))).length + 1 ≤ steps →
      fields? steps (commaSeparated (fieldChars ((key, v) :: fields)) ++ '\x7d' :: rest) =
        some ((key, v) :: fields, rest)
  | _, _, _, 0, _, hsteps => by omega
  | key, v, [], steps + 1, rest, hsteps => by
    rw [fieldChars, fieldChars, commaSeparated] at hsteps ⊢
    rw [List.length_append, List.length_cons] at hsteps
    rw [List.append_assoc, List.cons_append]
    exact fields?_last
      (value?_chars v steps ('\x7d' :: rest) (by omega) (endsNumber_cons (.inr (.inr rfl)) rest))
  | key, v, (key', w) :: fields, steps + 1, rest, hsteps => by
    rw [fieldChars, fieldChars, commaSeparated_cons_cons, ← fieldChars, List.length_append,
      List.length_append, List.length_cons, List.length_cons] at hsteps
    rw [fieldChars, fieldChars, commaSeparated_cons_cons, ← fieldChars, List.append_assoc,
      List.append_assoc, List.cons_append]
    exact fields?_comma (value?_chars v steps _ (by omega) (endsNumber_cons (.inl rfl) _))
      (fields?_chars key' w fields steps rest (by omega))

end

/-- The text of a value is read as the value. -/
theorem read?_write (v : Json) : read? v.write = some v := by
  have hread := v.value?_chars (2 * v.chars.length + 1) [] (by omega) JsonNumber.endsNumber_nil
  rw [List.append_nil] at hread
  rw [read?, write, String.toList_ofList]
  simp only [hread, Option.bind_eq_bind, Option.bind_some]
  rfl

end Json

end AlgebraicModel
