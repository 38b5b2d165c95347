import AlgebraicModel.Proofs.Decimal.Text
import AlgebraicModel.Proofs.IndexValue.Order

/-!
# What the text of a key tells

The text of a value does not show its kind: the text `1` and the integer `1` are written alike, and
so are an integer beyond `2 ^ 53` and the number that it is rounded to. Values that are written
alike are equal apart from these two cases (`IndexValue.confusable_of_text_eq`). In the text of a
key the values stand between commas. Texts may have commas too, but keys of one length that are
written alike have as many of them. So the values are written alike one by one, unless the keys have
these commas in different values (`Key.textsEqual_of_text_eq`).
-/

set_option autoImplicit false

namespace AlgebraicModel

-- Powers of numbers are those of core, whichever other instances are in scope.
attribute [local instance (high)] instPowNat

namespace IndexValue

/-! ## Values -/

/-- The second value is written like the first one and may be another one: it is a text that reads
like a number, or a number that an integer beyond `2 ^ 53` is written like. -/
inductive Resembles : IndexValue → IndexValue → Prop
  | text {v : IndexValue} (hv : v.float?.isSome = true) : Resembles v (str v.text)
  | rounded {n : Int64} {x : Float} (hn : 2 ^ 53 < n.toInt.natAbs)
      (htext : (int n).text = (float x).text) : Resembles (int n) (float x)

/-- Two values that may be different although they are written alike. -/
def Confusable (v w : IndexValue) : Prop := Resembles v w ∨ Resembles w v

theorem Confusable.text_eq {v w : IndexValue} (h : Confusable v w) : v.text = w.text := by
  rcases h with h | h
  · cases h with
    | text => rfl
    | rounded _ htext => exact htext
  · cases h with
    | text => rfl
    | rounded _ htext => exact htext.symm

theorem natAbs_toInt_le (n : Int64) : n.toInt.natAbs ≤ 2 ^ 63 := by
  have hlow := n.le_toInt
  have hhigh := n.toInt_lt
  omega

theorem int_eq_of_text_eq {n m : Int64} (h : (int n).text = (int m).text) : n = m := by
  have hchars : (toString n.toInt).toList = (toString m.toInt).toList := congrArg String.toList h
  rw [Binary64.toString_toList, Binary64.toString_toList] at hchars
  obtain ⟨hsign, hdigits⟩ := Binary64.signChars_append_inj (Binary64.toDigits_ne_minus _)
    (Binary64.toDigits_ne_minus _) hchars
  have hnat : n.toInt.natAbs = m.toInt.natAbs := Text.toDigits_injective hdigits
  have hnegative : n.toInt < 0 ↔ m.toInt < 0 := by simpa using hsign
  exact Int64.toInt_inj.mp (by omega)

/-- Numbers that are written alike are equal. -/
theorem compare_float_of_text_eq {x y : Float} (h : (float x).text = (float y).text) :
    compare (float x) (float y) = .eq := by
  rw [compare_eq_eq_iff, place, place]
  rcases Binary64.eq_of_text_eq h with ⟨hx, hy⟩ | ⟨hsign, hmagnitude⟩
  · rw [floatPlace_of_isNaN hx, floatPlace_of_isNaN hy]
  · have hnan : Binary64.isNaN x = Binary64.isNaN y := by
      rw [Binary64.isNaN, Binary64.isNaN, hmagnitude]
    have hinfinite : Binary64.isInfinite x = Binary64.isInfinite y := by
      rw [Binary64.isInfinite, Binary64.isInfinite, hmagnitude]
    have hunits : Binary64.units x = Binary64.units y := by
      rw [Binary64.units, Binary64.units, hsign, hmagnitude]
    rw [floatPlace, floatPlace, hnan, hinfinite, hsign, hunits]

/-- Up to `2 ^ 53` an integer is equal to every number that is written like it. -/
theorem compare_int_float_of_text_eq {n : Int64} {x : Float} (hn : n.toInt.natAbs ≤ 2 ^ 53)
    (h : (int n).text = (float x).text) : compare (int n) (float x) = .eq := by
  obtain ⟨hfinite, hsign, hmagnitude⟩ := Binary64.eq_ofInt_of_text_eq (natAbs_toInt_le n) h.symm
  have hunits : Binary64.units x = n.toInt * (Binary64.unitsPerOne : Int) := by
    rw [← Binary64.units_ofInt_of_le hn, Binary64.units, Binary64.units, hsign, hmagnitude]
  rw [compare_eq_eq_iff, place, place, floatPlace_of_isFinite hfinite, hunits]

/-- Values that are written alike are equal, unless they are confusable. -/
theorem confusable_of_text_eq {v w : IndexValue} (h : v.text = w.text) (hne : compare v w ≠ .eq) :
    Confusable v w := by
  -- an integer and a number, whichever comes first
  have hmixed {n : Int64} {x : Float} (h : (int n).text = (float x).text)
      (hne : compare (int n) (float x) ≠ .eq) : Resembles (int n) (float x) := by
    refine .rounded ?_ h
    by_contra hn
    exact hne (compare_int_float_of_text_eq (Nat.le_of_not_lt hn) h)
  cases v with
  | int n =>
    cases w with
    | int m => exact absurd (by rw [int_eq_of_text_eq h]; exact compare_self _) hne
    | float x => exact .inl (hmixed h hne)
    | str s =>
      obtain rfl : (int n).text = s := h
      exact .inl (.text rfl)
  | float x =>
    cases w with
    | int m =>
      refine .inr (hmixed h.symm ?_)
      rwa [Ne, compare_eq_eq_iff, eq_comm, ← compare_eq_eq_iff]
    | float y => exact absurd (compare_float_of_text_eq h) hne
    | str s =>
      obtain rfl : (float x).text = s := h
      exact .inl (.text rfl)
  | str s =>
    cases w with
    | str t =>
      obtain rfl : s = t := h
      exact absurd (compare_self _) hne
    | int m =>
      obtain rfl : s = (int m).text := h
      exact .inr (.text rfl)
    | float x =>
      obtain rfl : s = (float x).text := h
      exact .inr (.text rfl)

/-- The commas in the text of a value. -/
def commas (v : IndexValue) : Nat := v.text.toList.count ','

end IndexValue

/-! ## Keys -/

namespace Key

/-- What is written of the values behind another one. -/
def tailText (k : Key) : List Char := k.flatMap fun v => ',' :: v.text.toList

theorem text_cons (v : IndexValue) (k : Key) :
    (text (v :: k)).toList = v.text.toList ++ tailText k := by
  rw [text, String.toList_intercalate, List.map_cons, List.map_cons, Text.intercalate_cons,
    List.map_map, List.flatMap_map]
  rfl

theorem head?_tailText (k : Key) : ∀ c ∈ (tailText k).head?, c = ',' := by
  cases k with
  | nil => simp [tailText]
  | cons v k =>
    intro c hc
    cases hc
    rfl

variable {k k' : Key}

theorem tailText_eq_of_text_eq (hlength : k.length = k'.length) (h : k.text = k'.text) :
    tailText k = tailText k' := by
  cases k with
  | nil => rw [List.length_eq_zero_iff.mp hlength.symm]
  | cons v k =>
    cases k' with
    | nil => cases hlength
    | cons w k' =>
      have hchars := congrArg String.toList h
      rw [text_cons, text_cons] at hchars
      exact congrArg (List.cons ',') hchars

/-- The commas in the values of a key. -/
def commas (k : Key) : Nat := (k.map IndexValue.commas).sum

@[simp] theorem commas_cons (v : IndexValue) (k : Key) : commas (v :: k) = v.commas + commas k := by
  rw [commas, List.map_cons, List.sum_cons, commas]

/-- The other commas of a text stand before the values. -/
theorem count_tailText (k : Key) : (tailText k).count ',' = k.length + commas k := by
  induction k with
  | nil => rfl
  | cons v k ih =>
    rw [tailText, List.flatMap_cons, List.count_append, List.count_cons_self]
    change v.commas + 1 + (tailText k).count ',' = _
    rw [ih, commas_cons, List.length_cons]
    omega

/-- Keys with as many commas in their values have as many at each place. -/
def CommasAligned (k k' : Key) : Prop :=
  commas k = commas k' → List.Forall₂ (fun v w => v.commas = w.commas) k k'

/-- The values are written alike, one by one. -/
abbrev TextsEqual (k k' : Key) : Prop := List.Forall₂ (fun v w => v.text = w.text) k k'

/-- The texts of two keys tell the texts of their values, unless commas in different values can be
taken for those between values. -/
theorem textsEqual_of_text_eq (hlength : k.length = k'.length) (haligned : CommasAligned k k')
    (h : k.text = k'.text) : TextsEqual k k' := by
  have htail := tailText_eq_of_text_eq hlength h
  have hcommas : commas k = commas k' := by
    have hcount := congrArg (List.count ',') htail
    rw [count_tailText, count_tailText] at hcount
    omega
  have hplaces := haligned hcommas
  clear h hlength haligned hcommas
  induction hplaces with
  | nil => exact .nil
  | cons hvw _ ih =>
    obtain ⟨hfirst, hrest⟩ := Text.append_inj_of_count (head?_tailText _) (head?_tailText _) hvw
      (List.cons.inj htail).2
    exact .cons (String.toList_inj.mp hfirst) (ih hrest)

/-- At some place the keys have values that are different and not confusable. -/
def Distinguishable (k k' : Key) : Prop :=
  ∃ (i : Nat) (v w : IndexValue), k[i]? = some v ∧ k'[i]? = some w ∧
    IndexValue.compare v w ≠ .eq ∧ ¬ IndexValue.Confusable v w

/-- Distinguishable keys are not written alike, value by value. -/
theorem Distinguishable.not_textsEqual (h : Distinguishable k k') : ¬ TextsEqual k k' := by
  obtain ⟨i, v, w, hv, hw, hne, hconfusable⟩ := h
  intro hequal
  obtain ⟨hi, rfl⟩ := List.getElem?_eq_some_iff.mp hv
  obtain ⟨hi', rfl⟩ := List.getElem?_eq_some_iff.mp hw
  exact hconfusable (IndexValue.confusable_of_text_eq (hequal.get hi hi') hne)

end Key

end AlgebraicModel
