import AlgebraicModel.Proofs.Decimal.ReadBack
import AlgebraicModel.Proofs.Json.Number
import AlgebraicModel.Proofs.Text.Delimited

/-!
# What the text of a number tells

Decimals that are written alike have one magnitude (`Decimal.magnitude_eq_of_positional_eq`): a
point shows how many places there are, and without places the digits are those of an integer. A
binary64 number is written as a decimal that reads back to it, with its sign in front, so numbers
that are written alike are the same, or neither of them is a number (`Binary64.eq_of_text_eq`). An
integer may be written like the number nearest to it, and like no other one
(`Binary64.eq_ofInt_of_text_eq`).
-/

set_option autoImplicit false

namespace AlgebraicModel

-- Powers of numbers are those of core, whichever other instances are in scope.
attribute [local instance (high)] instPowNat

namespace Decimal

open Binary64 (infinityMagnitude nearestMagnitude)

/-! ## Decimals -/

section

variable {d d' : Decimal}

theorem positional_of_nonneg (h : 0 ≤ d.exponent) :
    d.positional = Nat.toDigits 10 d.digits ++ List.replicate d.exponent.toNat '0' := by
  simp [positional, split, h]

theorem isDigit_of_mem_positional (h : 0 ≤ d.exponent) : ∀ c ∈ d.positional, c.isDigit = true := by
  intro c hc
  rw [positional_of_nonneg h, List.mem_append] at hc
  rcases hc with hc | hc
  · exact Nat.isDigit_of_mem_toDigits (by decide) (by decide) hc
  · rw [List.eq_of_mem_replicate hc]
    rfl

/-- A decimal without places is written as the digits of its value. -/
theorem ofDigitChars_positional (h : 0 ≤ d.exponent) :
    Nat.ofDigitChars 10 d.positional 0 = d.digits * 10 ^ d.exponent.toNat := by
  rw [positional_of_nonneg h, Nat.ofDigitChars_append, Nat.ofDigitChars_ten_toDigits,
    Nat.ofDigitChars_replicate_zero, Nat.mul_comm]

/-- A decimal with places is written with a point, behind which its places stand. -/
theorem exists_point (h : d.exponent < 0) :
    ∃ before behind, d.positional = before ++ '.' :: behind ∧ JsonNumber.IsDigits before ∧
      JsonNumber.IsDigits behind ∧ Nat.ofDigitChars 10 (before ++ behind) 0 = d.digits ∧
      d.exponent = -(behind.length : Int) := by
  obtain ⟨n, e⟩ := d
  obtain ⟨places, rfl⟩ : ∃ places : Nat, e = -(places : Int) := by
    dsimp only at h
    exact ⟨(-e).toNat, by omega⟩
  have hplaces : places ≠ 0 := by
    rintro rfl
    cases h
  obtain ⟨before, behind, htext, hpadded, hlength, hbefore, -, hbehind⟩ :=
    JsonNumber.exists_positional (n := n) hplaces
  exact ⟨before, behind, htext, hbefore, hbehind,
    by rw [hpadded, JsonNumber.ofDigitChars_padded], by rw [hlength]⟩

/-- A decimal without places has the magnitude that is nearest to its value. -/
theorem magnitude_of_nonneg (h : 0 ≤ d.exponent) (hd : d.magnitude < infinityMagnitude) :
    d.magnitude = nearestMagnitude (d.digits * 10 ^ d.exponent.toNat) 1 := by
  rw [magnitude] at hd ⊢
  split
  case isTrue hdigits =>
    rw [hdigits, Nat.zero_mul]
    rfl
  case isFalse hdigits =>
    rw [if_neg hdigits] at hd
    split
    case isTrue hlarge =>
      rw [if_pos hlarge] at hd
      exact absurd hd (Nat.lt_irrefl _)
    case isFalse =>
      have hplaces : (-d.exponent).toNat = 0 := by omega
      rw [if_neg (by omega)]
      simp only [ratio, hplaces, Nat.pow_zero]

/-- Decimals that are written alike have the same magnitude. -/
theorem magnitude_eq_of_positional_eq (h : d.positional = d'.positional)
    (hd : d.magnitude < infinityMagnitude) (hd' : d'.magnitude < infinityMagnitude) :
    d.magnitude = d'.magnitude := by
  -- a point is written just where there are places
  have hpoint {d d' : Decimal} (hexponent : 0 ≤ d.exponent) (hexponent' : ¬ 0 ≤ d'.exponent) :
      d.positional ≠ d'.positional := by
    intro h
    obtain ⟨before, behind, htext, -⟩ := exists_point (Int.not_le.mp hexponent')
    have hdigit := isDigit_of_mem_positional hexponent '.' (by simp [h, htext])
    cases hdigit
  by_cases hexponent : 0 ≤ d.exponent <;> by_cases hexponent' : 0 ≤ d'.exponent
  · rw [magnitude_of_nonneg hexponent hd, magnitude_of_nonneg hexponent' hd',
      ← ofDigitChars_positional hexponent, ← ofDigitChars_positional hexponent', h]
  · exact absurd h (hpoint hexponent hexponent')
  · exact absurd h.symm (hpoint hexponent' hexponent)
  · obtain ⟨before, behind, htext, hbefore, -, hdigits, hplaces⟩ :=
      exists_point (Int.not_le.mp hexponent)
    obtain ⟨before', behind', htext', hbefore', -, hdigits', hplaces'⟩ :=
      exists_point (Int.not_le.mp hexponent')
    rw [htext, htext'] at h
    obtain ⟨rfl, hrest⟩ := Text.append_inj_of_run hbefore.digit hbefore'.digit (by simp) (by simp) h
    obtain rfl := (List.cons.inj hrest).2
    have hsame : d = d' := by
      obtain ⟨n, e⟩ := d
      obtain ⟨n', e'⟩ := d'
      simp_all
    rw [hsame]

end

end Decimal

namespace Binary64

open JsonNumber (IsDigits isDigits_toDigits)

/-! ## Magnitudes -/

/-- A finite magnitude is written as a decimal that reads back to it. -/
theorem exists_decimal {m : Nat} (h : m < infinityMagnitude) :
    ∃ d : Decimal, magnitudeText m = d.positional ∧ d.magnitude = m := by
  rw [magnitudeText, if_neg (Nat.lt_asymm h), if_neg h.ne]
  by_cases hm : m = 0
  · rw [if_pos hm, hm]
    exact ⟨⟨0, 0⟩, rfl, rfl⟩
  · rw [if_neg hm]
    exact ⟨_, rfl, Decimal.magnitude_shortest .greater hm h⟩

/-- A decimal begins with a digit. -/
theorem exists_positional_cons (d : Decimal) :
    ∃ c cs, d.positional = c :: cs ∧ c.isDigit = true := by
  by_cases h : 0 ≤ d.exponent
  · obtain ⟨c, cs, hcs⟩ := List.exists_cons_of_ne_nil (isDigits_toDigits d.digits).ne_nil
    refine ⟨c, cs ++ List.replicate d.exponent.toNat '0', ?_, ?_⟩
    · rw [Decimal.positional_of_nonneg h, hcs]
      rfl
    · exact (isDigits_toDigits d.digits).digit c (by rw [hcs]; exact List.mem_cons_self)
  · obtain ⟨before, behind, htext, hbefore, -⟩ := Decimal.exists_point (Int.not_le.mp h)
    obtain ⟨c, cs, rfl⟩ := List.exists_cons_of_ne_nil hbefore.ne_nil
    exact ⟨c, cs ++ '.' :: behind, htext, hbefore.digit c List.mem_cons_self⟩

/-- The kinds of magnitudes as their texts show them: no number, infinite, or finite. -/
theorem magnitudeText_cases (m : Nat) :
    (infinityMagnitude < m ∧ magnitudeText m = "NaN".toList) ∨
      (m = infinityMagnitude ∧ magnitudeText m = "inf".toList) ∨
      (m < infinityMagnitude ∧ ∃ c cs, magnitudeText m = c :: cs ∧ c.isDigit = true) := by
  rcases Nat.lt_trichotomy m infinityMagnitude with h | h | h
  · obtain ⟨d, hd, -⟩ := exists_decimal h
    rw [hd]
    exact .inr (.inr ⟨h, exists_positional_cons d⟩)
  · exact .inr (.inl ⟨h, by rw [magnitudeText, if_neg h.not_gt, if_pos h]⟩)
  · exact .inl ⟨h, by rw [magnitudeText, if_pos h]⟩

/-- A magnitude has no sign. -/
theorem magnitudeText_ne_minus (m : Nat) (cs : List Char) : magnitudeText m ≠ '-' :: cs := by
  rintro h
  rcases magnitudeText_cases m with ⟨-, htext⟩ | ⟨-, htext⟩ | ⟨-, c, ds, htext, hc⟩
  · rw [htext] at h
    cases h
  · rw [htext] at h
    cases h
  · rw [htext] at h
    cases h
    cases hc

/-- Magnitudes that are written alike are the same, or stand for no number both. -/
theorem eq_of_magnitudeText_eq {m m' : Nat} (h : magnitudeText m = magnitudeText m') :
    m = m' ∨ (infinityMagnitude < m ∧ infinityMagnitude < m') := by
  rcases magnitudeText_cases m with ⟨hm, htext⟩ | ⟨hm, htext⟩ | ⟨hm, c, cs, htext, hc⟩ <;>
    rcases magnitudeText_cases m' with ⟨hm', htext'⟩ | ⟨hm', htext'⟩ | ⟨hm', c', cs', htext', hc'⟩
  -- texts of different kinds begin differently
  · exact .inr ⟨hm, hm'⟩
  · rw [htext, htext'] at h
    cases h
  · rw [htext, htext'] at h
    cases h
    cases hc'
  · rw [htext, htext'] at h
    cases h
  · exact .inl (hm.trans hm'.symm)
  · rw [htext, htext'] at h
    cases h
    cases hc'
  · rw [htext, htext'] at h
    cases h
    cases hc
  · rw [htext, htext'] at h
    cases h
    cases hc
  · obtain ⟨d, hd, hdm⟩ := exists_decimal hm
    obtain ⟨d', hd', hdm'⟩ := exists_decimal hm'
    have hmagnitude : d.magnitude = d'.magnitude :=
      Decimal.magnitude_eq_of_positional_eq (by rw [← hd, ← hd', h]) (by rwa [hdm]) (by rwa [hdm'])
    exact .inl (by rw [← hdm, ← hdm', hmagnitude])

/-! ## Numbers -/

/-- A sign, if there is one. -/
def signChars (negative : Bool) : List Char := if negative then ['-'] else []

theorem text_toList (x : Float) :
    (text x).toList = signChars (isNegative x && !isNaN x) ++ magnitudeText (magnitude x) := by
  rw [text, String.toList_ofList, signChars]
  split <;> rfl

/-- A sign is told from what begins without one. -/
theorem signChars_append_inj {b b' : Bool} {cs ds : List Char} (hcs : ∀ s, cs ≠ '-' :: s)
    (hds : ∀ s, ds ≠ '-' :: s) (h : signChars b ++ cs = signChars b' ++ ds) : b = b' ∧ cs = ds := by
  cases b <;> cases b'
  · exact ⟨rfl, h⟩
  · exact absurd h (hcs ds)
  · exact absurd h.symm (hds cs)
  · exact ⟨rfl, (List.cons.inj h).2⟩

/-- Numbers that are written alike have one sign and one magnitude, or neither is a number. -/
theorem eq_of_text_eq {x y : Float} (h : text x = text y) :
    (isNaN x = true ∧ isNaN y = true) ∨
      (isNegative x = isNegative y ∧ magnitude x = magnitude y) := by
  have hchars : (text x).toList = (text y).toList := by rw [h]
  rw [text_toList, text_toList] at hchars
  obtain ⟨hsign, hmagnitude⟩ := signChars_append_inj (magnitudeText_ne_minus _)
    (magnitudeText_ne_minus _) hchars
  rcases eq_of_magnitudeText_eq hmagnitude with heq | ⟨hx, hy⟩
  · have hnan : isNaN x = isNaN y := by rw [isNaN, isNaN, heq]
    cases hx : isNaN x with
    | true => exact .inl ⟨rfl, by rw [← hnan, hx]⟩
    | false =>
      rw [← hnan, hx] at hsign
      exact .inr ⟨by simpa using hsign, heq⟩
  · exact .inl ⟨by simp [isNaN, hx], by simp [isNaN, hy]⟩

/-! ## Integers -/

theorem toString_toList (n : Int) :
    (toString n).toList = signChars (n < 0) ++ Nat.toDigits 10 n.natAbs := by
  rw [Int.toString_eq_repr, Int.repr_eq_if]
  by_cases hn : 0 ≤ n
  · have hnat : n.toNat = n.natAbs := by omega
    rw [if_pos hn, Nat.toList_repr, hnat, decide_eq_false (Int.not_lt.mpr hn)]
    rfl
  · have hnat : (-n).toNat = n.natAbs := by omega
    rw [if_neg hn, String.toList_append, Nat.toList_repr, hnat, decide_eq_true (Int.not_le.mp hn)]
    rfl

theorem toDigits_ne_minus (n : Nat) (cs : List Char) : Nat.toDigits 10 n ≠ '-' :: cs := by
  intro h
  cases (isDigits_toDigits n).digit '-' (by rw [h]; exact List.mem_cons_self)

/-- The integers of sixty-four bits are far from the infinities. -/
theorem nearestMagnitude_lt {n : Nat} (h : n ≤ 2 ^ 63) :
    nearestMagnitude n 1 < infinityMagnitude := by
  by_cases hn : n = 0
  · rw [hn]
    decide
  have hlog : n.log2 < 64 := (Nat.log2_lt hn).mpr (by omega)
  have hleading := (leading_bounds hn).2
  have hinf := infinityMagnitude_eq
  rw [nearestMagnitude_one hn]
  omega

theorem magnitude_whole (n : Nat) : (Decimal.mk n 0).magnitude = nearestMagnitude n 1 := by
  rw [Decimal.magnitude]
  split
  case isTrue h =>
    dsimp only at h
    rw [h]
    rfl
  case isFalse =>
    rw [if_neg (by dsimp only; omega), if_neg (by dsimp only; omega)]
    simp [Decimal.ratio]

/-- A number that is written like an integer is the one nearest to it. -/
theorem eq_ofInt_of_text_eq {n : Int} {x : Float} (hn : n.natAbs ≤ 2 ^ 63)
    (h : text x = toString n) : isFinite x = true ∧ isNegative x = isNegative (ofInt n) ∧
      magnitude x = magnitude (ofInt n) := by
  have hchars : (text x).toList = (toString n).toList := by rw [h]
  rw [text_toList, toString_toList] at hchars
  obtain ⟨hsign, hdigits⟩ := signChars_append_inj (magnitudeText_ne_minus _)
    (toDigits_ne_minus _) hchars
  have hdigit : ∀ c ∈ magnitudeText (magnitude x), c.isDigit = true := by
    rw [hdigits]
    exact (isDigits_toDigits _).digit
  rcases magnitudeText_cases (magnitude x) with ⟨-, htext⟩ | ⟨-, htext⟩ | ⟨hx, -⟩
  · cases hdigit 'N' (by simp [htext])
  · cases hdigit 'i' (by simp [htext])
  · -- two decimals that are written alike
    obtain ⟨d, hd, hdm⟩ := exists_decimal hx
    have hwhole : (Decimal.mk n.natAbs 0).positional = d.positional := by
      rw [← hd, hdigits]
      exact JsonNumber.positional_of_zero n.natAbs
    have hmagnitude := Decimal.magnitude_eq_of_positional_eq hwhole
      (by rw [magnitude_whole]; exact nearestMagnitude_lt hn) (by rwa [hdm])
    rw [magnitude_whole, hdm] at hmagnitude
    have hnan : isNaN x = false := by simp [isNaN, Nat.not_lt.mpr hx.le]
    rw [hnan] at hsign
    refine ⟨by simp [isFinite, hx], ?_, ?_⟩
    · rw [isNegative_ofInt, ← hsign, Bool.not_false, Bool.and_true]
    · rw [magnitude_ofInt, hmagnitude]

end Binary64

end AlgebraicModel
