import Mathlib.Data.String.Basic

/-!
# The order of texts is the order of their bytes

Texts are compared code point by code point. The bytes of a text are its code points in the encoding
of one to four bytes, and this encoding keeps the order: of two code points the lesser one has the
lesser bytes, whatever follows (`utf8EncodeChar_append_lt`). So the dictionary order of the bytes is
the order of the texts (`compare_textBytes`).
-/

set_option autoImplicit false

namespace AlgebraicModel

/-- The bytes of a text. -/
def textBytes (s : String) : List UInt8 := s.toUTF8.data.toList

theorem textBytes_eq_flatMap (s : String) :
    textBytes s = s.toList.flatMap String.utf8EncodeChar := by
  rw [textBytes, String.toUTF8_eq_toByteArray, ← String.utf8Encode_toList, List.utf8Encode,
    List.toList_data_toByteArray]

theorem byte_lt_iff {a b : Nat} (ha : a < 256) (hb : b < 256) :
    UInt8.ofNat a < UInt8.ofNat b ↔ a < b := by
  rw [UInt8.lt_iff_toNat_lt, UInt8.toNat_ofNat', UInt8.toNat_ofNat', Nat.mod_eq_of_lt ha,
    Nat.mod_eq_of_lt hb]

theorem byte_eq_iff {a b : Nat} (ha : a < 256) (hb : b < 256) :
    UInt8.ofNat a = UInt8.ofNat b ↔ a = b := by
  rw [← UInt8.toNat_inj, UInt8.toNat_ofNat', UInt8.toNat_ofNat', Nat.mod_eq_of_lt ha,
    Nat.mod_eq_of_lt hb]

/-- The lesser code point has the lesser bytes, whatever follows: either it takes fewer bytes, which
its first byte shows, or the first digits to the base sixty-four that differ are in order. -/
theorem utf8EncodeChar_append_lt {c d : Char} (h : c.toNat < d.toNat) (xs ys : List UInt8) :
    String.utf8EncodeChar c ++ xs < String.utf8EncodeChar d ++ ys := by
  have hd : d.toNat < 0x110000 := by
    have hvalid := d.valid
    simp only [UInt32.isValidChar, Nat.isValidChar] at hvalid
    change d.val.toNat < 0x110000
    omega
  have hdigits (v : Nat) : v / 4096 = v / 64 / 64 ∧ v / 262144 = v / 64 / 64 / 64 := by
    simp only [Nat.div_div_eq_div_mul]
    decide
  change c.val.toNat < d.val.toNat at h
  change d.val.toNat < 0x110000 at hd
  unfold String.utf8EncodeChar
  generalize c.val.toNat = v at *
  generalize d.val.toNat = w at *
  simp only [hdigits]
  repeat' split
  all_goals
    simp (disch := omega) only [List.cons_append, List.nil_append, List.cons_lt_cons_iff,
      byte_lt_iff, byte_eq_iff]
    omega

theorem flatMap_utf8EncodeChar_lt {cs ds : List Char} (h : cs < ds) :
    cs.flatMap String.utf8EncodeChar < ds.flatMap String.utf8EncodeChar := by
  induction h with
  | nil =>
    rename_i d ds
    obtain ⟨b, bs, hbytes⟩ := List.exists_cons_of_ne_nil (String.utf8EncodeChar_ne_nil (c := d))
    rw [List.flatMap_nil, List.flatMap_cons, hbytes]
    exact List.nil_lt_cons _ _
  | rel h =>
    rw [List.flatMap_cons, List.flatMap_cons]
    exact utf8EncodeChar_append_lt h _ _
  | cons h ih =>
    rw [List.flatMap_cons, List.flatMap_cons]
    exact List.append_left_lt ih

theorem textBytes_lt {s t : String} (h : s < t) : textBytes s < textBytes t := by
  rw [textBytes_eq_flatMap, textBytes_eq_flatMap]
  exact flatMap_utf8EncodeChar_lt (String.lt_iff.mp h)

/-- The order of bytes as numbers. -/
def compareByte (a b : UInt8) : Ordering := Ord.compare a.toNat b.toNat

theorem compareLex_compareByte_of_lt {l m : List UInt8} (h : l < m) :
    List.compareLex compareByte l m = .lt := by
  induction h with
  | nil => exact List.compareLex_nil_cons
  | rel h =>
    rw [List.compareLex_cons_cons, compareByte, Nat.compare_eq_lt.mpr (UInt8.lt_iff_toNat_lt.mp h)]
    rfl
  | cons h ih =>
    rw [List.compareLex_cons_cons, ih, compareByte, Std.compare_self]
    rfl

instance : Std.TransCmp compareByte :=
  inferInstanceAs (Std.TransCmp (compareOn UInt8.toNat))

/-- Texts are ordered by their code points, which is the order of their bytes. -/
theorem compare_textBytes (s t : String) :
    Ord.compare s t = List.compareLex compareByte (textBytes s) (textBytes t) := by
  have hlt {s t : String} (h : s < t) :
      Ord.compare s t = List.compareLex compareByte (textBytes s) (textBytes t) := by
    rw [compareLex_compareByte_of_lt (textBytes_lt h)]
    exact if_pos h
  rcases lt_trichotomy s t with h | rfl | h
  · exact hlt h
  · exact Std.compare_self.trans Std.ReflCmp.compare_self.symm
  · have hswap : Ord.compare s t = (Ord.compare t s).swap := Std.OrientedCmp.eq_swap
    rw [hswap, hlt h]
    exact Std.OrientedCmp.eq_swap.symm

end AlgebraicModel
