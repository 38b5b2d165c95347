import AlgebraicModel.Text.Quoted
import Mathlib.Data.List.Basic

/-!
# Texts that show where they end

Two texts that begin alike need not begin with the same parts: `12` begins with `1` and with `12`. A
run of characters of one class ends where the class does (`append_inj_of_run`), a text with a known
number of separators before the next one (`append_inj_of_count`), and a quoted text with the first
quote that is not behind a backslash, whatever follows. Of a character between the quotes its escape
shows where it ends (`escape_append_inj`), so two quoted texts at the beginning of one text are the
same (`quoted_append_inj`).
-/

set_option autoImplicit false

namespace AlgebraicModel.Text

/-! ## Runs -/

/-- A run of characters of one class is as long as the class lasts. -/
theorem append_inj_of_run {p : Char → Bool} {cs ds s t : List Char}
    (hcs : ∀ c ∈ cs, p c = true) (hds : ∀ c ∈ ds, p c = true)
    (hs : ∀ c ∈ s.head?, p c = false) (ht : ∀ c ∈ t.head?, p c = false)
    (h : cs ++ s = ds ++ t) : cs = ds ∧ s = t := by
  have htake (cs s : List Char) (hcs : ∀ c ∈ cs, p c = true) (hs : ∀ c ∈ s.head?, p c = false) :
      (cs ++ s).takeWhile p = cs := by
    rw [List.takeWhile_append_of_pos hcs]
    cases s with
    | nil => exact List.append_nil cs
    | cons c s => rw [List.takeWhile_cons_of_neg (by simp [hs c rfl]), List.append_nil]
  have hrun : cs = ds := by rw [← htake cs s hcs hs, h, htake ds t hds ht]
  subst hrun
  exact ⟨rfl, List.append_cancel_left h⟩

/-- A separator shows where a text before it ends, if one knows how often it occurs in that text. -/
theorem append_inj_of_count {a : Char} {cs ds s t : List Char} (hs : ∀ c ∈ s.head?, c = a)
    (ht : ∀ c ∈ t.head?, c = a) (hcount : cs.count a = ds.count a) (h : cs ++ s = ds ++ t) :
    cs = ds ∧ s = t := by
  -- the longer text would go on with the separator
  have hshort {cs u : List Char} (hu : ∀ c ∈ u.head?, c = a)
      (hcount : cs.count a = (cs ++ u).count a) : u = [] := by
    cases u with
    | nil => rfl
    | cons c u =>
      obtain rfl := hu c rfl
      rw [List.count_append, List.count_cons_self] at hcount
      omega
  rcases List.append_eq_append_iff.mp h with ⟨u, rfl, rfl⟩ | ⟨u, rfl, rfl⟩
  · have hu : u = [] := hshort (fun c hc => hs c (by cases u <;> simp_all)) hcount
    simp [hu]
  · have hu : u = [] := hshort (fun c hc => ht c (by cases u <;> simp_all)) hcount.symm
    simp [hu]

/-- Texts with a separator between them: the first one, and the separator before each other one. -/
theorem intercalate_cons (sep cs : List Char) (rest : List (List Char)) :
    sep.intercalate (cs :: rest) = cs ++ rest.flatMap fun ds => sep ++ ds := by
  induction rest generalizing cs with
  | nil => simp
  | cons ds rest ih => rw [List.intercalate_cons_cons, ih, List.flatMap_cons, List.append_assoc,
      List.append_assoc]

/-! ## Digits -/

/-- The decimal digits of a number give the number. -/
theorem toDigits_injective {m n : Nat} (h : Nat.toDigits 10 m = Nat.toDigits 10 n) : m = n := by
  rw [← Nat.ofDigitChars_ten_toDigits (n := m), h, Nat.ofDigitChars_ten_toDigits]

theorem digitChar_inj {m n : Nat} (hm : m < 16) (hn : n < 16) (h : m.digitChar = n.digitChar) :
    m = n := by
  have hall : ∀ m < 16, ∀ n < 16, m.digitChar = n.digitChar → m = n := by decide
  exact hall m hm n hn h

theorem hexDigits_eq_append {n : Nat} (h : 16 ≤ n) :
    hexDigits n = hexDigits (n / 16) ++ [(n % 16).digitChar] := by
  rw [hexDigits, Nat.toDigits_eq_if (by decide), if_neg (by omega)]
  rfl

theorem hexDigits_of_lt {n : Nat} (h : n < 16) : hexDigits n = [n.digitChar] :=
  Nat.toDigits_of_lt_base h

theorem one_lt_length_hexDigits_iff (n : Nat) : 1 < (hexDigits n).length ↔ 16 ≤ n := by
  by_cases hn : n < 16
  · simp [hexDigits_of_lt hn, hn]
  · have hpos : 0 < (hexDigits (n / 16)).length :=
      List.length_pos_iff.mpr Nat.toDigits_ne_nil
    simp [hexDigits_eq_append (Nat.le_of_not_lt hn), hpos, Nat.le_of_not_lt hn]

/-- The digits of a code point give the code point. -/
theorem hexDigits_injective {m n : Nat} (h : hexDigits m = hexDigits n) : m = n := by
  induction m using Nat.strongRecOn generalizing n with
  | ind m ih =>
    -- the number of digits shows whether there are digits before the last one
    have hsize : 16 ≤ m ↔ 16 ≤ n := by
      rw [← one_lt_length_hexDigits_iff, ← one_lt_length_hexDigits_iff, h]
    by_cases hm : m < 16
    · have hn : n < 16 := by omega
      rw [hexDigits_of_lt hm, hexDigits_of_lt hn] at h
      exact digitChar_inj hm hn (List.cons.inj h).1
    · rw [hexDigits_eq_append (n := m) (by omega), hexDigits_eq_append (n := n) (by omega)] at h
      obtain ⟨hquotient, hlast⟩ := List.append_inj' h rfl
      have hq : m / 16 = n / 16 := ih (m / 16) (by omega) hquotient
      have hr : m % 16 = n % 16 := digitChar_inj (Nat.mod_lt _ (by decide))
        (Nat.mod_lt _ (by decide)) (List.cons.inj hlast).1
      omega

theorem ne_brace_of_mem_hexDigits {n : Nat} {c : Char} (h : c ∈ hexDigits n) :
    (c != '\x7d') = true := by
  have hall : ∀ d < 16, (d.digitChar != '\x7d') = true := by decide
  induction n using Nat.strongRecOn with
  | ind n ih =>
    by_cases hn : n < 16
    · rw [hexDigits_of_lt hn, List.mem_singleton] at h
      rw [h]
      exact hall n hn
    · rw [hexDigits_eq_append (by omega), List.mem_append, List.mem_singleton] at h
      rcases h with h | rfl
      · exact ih (n / 16) (by omega) h
      · exact hall _ (Nat.mod_lt n (by decide))

/-! ## Escapes -/

/-- The three forms of an escape: a letter behind a backslash, a code point in hexadecimal behind
it, or the character as it stands. -/
inductive EscapesTo (c : Char) : List Char → Prop
  | letter {l : Char} (h : escapeLetter? c = some l) : EscapesTo c ['\\', l]
  | codePoint : EscapesTo c ('\\' :: 'u' :: '\x7b' :: (hexDigits c.toNat ++ ['\x7d']))
  | plain (hquote : c ≠ '"') (hslash : c ≠ '\\') : EscapesTo c [c]

theorem escapesTo_escape (c : Char) : EscapesTo c (escape c) := by
  rw [escape]
  split
  case h_1 l hl => exact .letter hl
  case h_2 hnone =>
    split
    · exact .codePoint
    · refine .plain ?_ ?_
      · rintro rfl
        cases hnone
      · rintro rfl
        cases hnone

/-- A letter that stands for a character stands for no other one, and not for a code point. -/
theorem escapeLetter?_inj {c d l : Char} (hc : escapeLetter? c = some l)
    (hd : escapeLetter? d = some l) : c = d ∧ l ≠ 'u' := by
  unfold escapeLetter? at hc hd
  split at hc <;> cases hc <;> split at hd <;> simp_all

theorem EscapesTo.append_inj {c d : Char} {cs ds s t : List Char} (hc : EscapesTo c cs)
    (hd : EscapesTo d ds) (h : cs ++ s = ds ++ t) : c = d ∧ s = t := by
  cases hc with
  | letter hl =>
    cases hd with
    | letter hm =>
      simp only [List.cons_append, List.nil_append, List.cons.injEq, true_and] at h
      obtain ⟨rfl, rfl⟩ := h
      exact ⟨(escapeLetter?_inj hl hm).1, rfl⟩
    | codePoint =>
      simp only [List.cons_append, List.cons.injEq, true_and] at h
      exact absurd h.1 (escapeLetter?_inj hl hl).2
    | plain _ hslash =>
      simp only [List.cons_append, List.cons.injEq] at h
      exact absurd h.1.symm hslash
  | codePoint =>
    cases hd with
    | letter hm =>
      simp only [List.cons_append, List.cons.injEq, true_and] at h
      exact absurd h.1.symm (escapeLetter?_inj hm hm).2
    | codePoint =>
      simp only [List.cons_append, List.cons.injEq, true_and, List.append_assoc,
        List.nil_append] at h
      obtain ⟨hdigits, hrest⟩ := append_inj_of_run (fun _ => ne_brace_of_mem_hexDigits)
        (fun _ => ne_brace_of_mem_hexDigits) (by simp) (by simp) h
      exact ⟨Char.toNat_inj.mp (hexDigits_injective hdigits), (List.cons.inj hrest).2⟩
    | plain _ hslash =>
      simp only [List.cons_append, List.cons.injEq] at h
      exact absurd h.1.symm hslash
  | plain _ hslash =>
    cases hd with
    | letter hm =>
      simp only [List.cons_append, List.cons.injEq] at h
      exact absurd h.1 hslash
    | codePoint =>
      simp only [List.cons_append, List.cons.injEq] at h
      exact absurd h.1 hslash
    | plain => exact List.cons.inj h

/-- An escape shows where it ends. -/
theorem escape_append_inj {c d : Char} {s t : List Char} (h : escape c ++ s = escape d ++ t) :
    c = d ∧ s = t :=
  (escapesTo_escape c).append_inj (escapesTo_escape d) h

/-- No escape begins with the quote. -/
theorem escape_append_ne_quote (c : Char) (s t : List Char) : escape c ++ s ≠ '"' :: t := by
  have h := escapesTo_escape c
  generalize escape c = cs at h
  cases h with
  | letter => simp
  | codePoint => simp
  | plain hquote => simp [hquote]

theorem flatMap_escape_append_inj {cs ds s t : List Char}
    (h : cs.flatMap escape ++ '"' :: s = ds.flatMap escape ++ '"' :: t) : cs = ds ∧ s = t := by
  induction cs generalizing ds with
  | nil =>
    cases ds with
    | nil => exact ⟨rfl, (List.cons.inj h).2⟩
    | cons d ds =>
      rw [List.flatMap_cons, List.append_assoc] at h
      exact absurd h.symm (escape_append_ne_quote d _ _)
  | cons c cs ih =>
    cases ds with
    | nil =>
      rw [List.flatMap_cons, List.append_assoc] at h
      exact absurd h (escape_append_ne_quote c _ _)
    | cons d ds =>
      simp only [List.flatMap_cons, List.append_assoc] at h
      obtain ⟨rfl, hrest⟩ := escape_append_inj h
      obtain ⟨rfl, hst⟩ := ih hrest
      exact ⟨rfl, hst⟩

/-- A quoted text shows where it ends. -/
theorem quoted_append_inj {a b : String} {s t : List Char}
    (h : (quoted a).toList ++ s = (quoted b).toList ++ t) : a = b ∧ s = t := by
  simp only [quoted, String.toList_ofList, List.cons_append, List.append_assoc, List.nil_append,
    List.cons.injEq, true_and] at h
  obtain ⟨hchars, hst⟩ := flatMap_escape_append_inj h
  exact ⟨String.toList_inj.mp hchars, hst⟩

end AlgebraicModel.Text
