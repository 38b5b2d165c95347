import AlgebraicModel.Json.Reader
import AlgebraicModel.Json.Writer
import Mathlib.Data.List.Basic

/-!
# Texts are read back as they were written

Between its quotes a text is written character by character. The reader first takes the pieces of a
string, of which a control without a letter is given by its code unit (`pieces?_flatMap_escape`),
and then joins the pieces to characters; no control is half of a pair, so the characters come back
(`joinPieces_map_piece`). A text that has no characters because of half a pair is written with one
half, and comes back without characters. So every text comes back, up to its closing quote
(`exists_string?_writeText`).
-/

set_option autoImplicit false

namespace AlgebraicModel.Json

/-! ## Code units -/

theorem hexDigit?_digitChar {d : Nat} (h : d < 16) : hexDigit? d.digitChar = some d := by
  have hall : ∀ d < 16, hexDigit? d.digitChar = some d := by decide
  exact hall d h

/-- The four digits of a code unit give the unit. -/
theorem hexUnit?_digits {n : Nat} (h : n < 65536) :
    hexUnit? (n / 4096 % 16).digitChar (n / 256 % 16).digitChar (n / 16 % 16).digitChar
      (n % 16).digitChar = some n := by
  have hdigit (m : Nat) : hexDigit? (m % 16).digitChar = some (m % 16) :=
    hexDigit?_digitChar (Nat.mod_lt m (by decide))
  rw [hexUnit?]
  simp only [hdigit, Option.bind_eq_bind, Option.bind_some]
  refine congrArg some ?_
  omega

/-- A code unit is read behind a backslash and its letter. -/
theorem pieces?_unit {n : Nat} (h : n < 65536) (cs : List Char) :
    pieces? ('\\' :: 'u' :: (hexUnit n ++ cs)) = do
      let (ps, rest) ← pieces? cs
      return (.unit n :: ps, rest) := by
  change pieces? ('\\' :: 'u' :: _ :: _ :: _ :: _ :: cs) = _
  rw [pieces?, hexUnit?_digits h]
  rfl

/-! ## Pieces -/

/-- The piece as which a character is written. -/
def piece (c : Char) : Piece :=
  if escapeLetter? c = none ∧ c.toNat < 32 then .unit c.toNat else .char c

/-- A letter behind a backslash stands for the character that is written with it. -/
theorem escaped?_of_escapeLetter? {c e : Char} (h : escapeLetter? c = some e) :
    escaped? e = some c ∧ e ≠ 'u' := by
  unfold escapeLetter? at h
  split at h <;> cases h <;> decide

/-- A character is read behind a backslash by its letter. -/
theorem pieces?_letter {c e : Char} (h : escaped? e = some c) (hu : e ≠ 'u') (cs : List Char) :
    pieces? ('\\' :: e :: cs) = do
      let (ps, rest) ← pieces? cs
      return (.char c :: ps, rest) := by
  rw [pieces?, h]
  · rfl
  · rintro _ _ _ _ _ heq
    exact absurd heq hu

/-- A character that is written as it stands. -/
theorem pieces?_char {c : Char} (hletter : escapeLetter? c = none) (h : ¬ c.toNat < 32)
    (cs : List Char) :
    pieces? (c :: cs) = do
      let (ps, rest) ← pieces? cs
      return (.char c :: ps, rest) := by
  have hslash : c ≠ '\\' := by
    rintro rfl
    cases hletter
  have hplain : ¬ (c = '\\' ∨ c.toNat < 32) := not_or.mpr ⟨hslash, h⟩
  rw [pieces?, if_neg hplain]
  · rintro rfl
    cases hletter
  · rintro _ _ _ _ _ hc
    exact absurd hc hslash
  · rintro _ _ hc
    exact absurd hc hslash

/-- The pieces begin with that of the first character. -/
theorem pieces?_escape (c : Char) (cs : List Char) :
    pieces? (escape c ++ cs) = do
      let (ps, rest) ← pieces? cs
      return (piece c :: ps, rest) := by
  rw [escape, piece]
  cases hletter : escapeLetter? c with
  | some e =>
    obtain ⟨hread, hu⟩ := escaped?_of_escapeLetter? hletter
    have hnone : ¬ (some e = none ∧ c.toNat < 32) := fun h => nomatch h.1
    rw [if_neg hnone]
    exact pieces?_letter hread hu cs
  | none =>
    by_cases hcontrol : c.toNat < 32
    · rw [if_pos hcontrol, if_pos ⟨rfl, hcontrol⟩]
      exact pieces?_unit (by omega) cs
    · rw [if_neg hcontrol, if_neg (fun h => hcontrol h.2)]
      exact pieces?_char hletter hcontrol cs

theorem pieces?_flatMap_escape (cs rest : List Char) :
    pieces? (cs.flatMap escape ++ '"' :: rest) = some (cs.map piece, rest) := by
  induction cs with
  | nil => rfl
  | cons c cs ih =>
    rw [List.flatMap_cons, List.append_assoc, pieces?_escape, ih]
    rfl

/-! ## Characters -/

/-- A code unit that is not half of a pair is a character of its own, whatever follows. -/
theorem joinPieces_unit {n : Nat} (h : n < 0xD800) (ps : List Piece) :
    joinPieces (.unit n :: ps) = (Char.ofNat n :: ·) <$> joinPieces ps := by
  have hsingle : unitChar? n = some (Char.ofNat n) := by
    rw [unitChar?, if_neg]
    omega
  have hpair (m : Nat) : pairChar? n m = none := by
    rw [pairChar?, if_neg]
    omega
  have hjoin : joinPieces (.unit n :: ps) = do
      let c ← unitChar? n
      return c :: (← joinPieces ps) := by
    rcases ps with _ | ⟨c | m, ps⟩
    · rfl
    · rfl
    · conv => lhs; rw [joinPieces, hpair m]
  rw [hjoin, hsingle]
  cases joinPieces ps <;> rfl

theorem joinPieces_map_piece (cs : List Char) : joinPieces (cs.map piece) = some cs := by
  induction cs with
  | nil => rfl
  | cons c cs ih =>
    rw [List.map_cons]
    by_cases h : escapeLetter? c = none ∧ c.toNat < 32
    · rw [piece, if_pos h, joinPieces_unit (by omega), ih, Char.ofNat_toNat]
      rfl
    · rw [piece, if_neg h, joinPieces, ih]
      rfl

/-! ## Strings -/

/-- A written text is a quote, and behind it a string that is read as the text. -/
theorem exists_string?_writeText (s : JsonText) (rest : List Char) :
    ∃ cs, writeText s ++ rest = '"' :: cs ∧ string? cs = some (s, rest) := by
  cases s with
  | none =>
    refine ⟨'\\' :: 'u' :: (hexUnit 0xD800 ++ '"' :: rest), rfl, ?_⟩
    rw [string?, pieces?_unit (by decide)]
    rfl
  | some s =>
    refine ⟨s.toList.flatMap escape ++ '"' :: rest, ?_, ?_⟩
    · rw [writeText, List.cons_append, List.append_assoc]
      rfl
    · rw [string?, pieces?_flatMap_escape]
      simp only [Option.bind_eq_bind, Option.bind_some, joinPieces_map_piece, Option.map_some,
        String.ofList_toList]
      rfl

end AlgebraicModel.Json
