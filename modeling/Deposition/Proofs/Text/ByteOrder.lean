import Deposition.Text.Utf8
import Mathlib.Data.List.Lex
import Mathlib.Data.String.Basic
import Mathlib.Order.Basic

/-!
# Texts in the order of their bytes

A table whose keys are texts keeps them in the order of their bytes, and here texts are compared
character by character. Both are the same order (`Deposition.Utf8.lt_iff_encode_lt`): UTF-8 is made
so that a greater character has the greater bytes, whatever follows.

Why that is so is read off the encoding. The first byte of a longer sequence is the greater one, and
within one length the bytes are the digits of the character, the highest first.
-/

namespace Deposition

namespace Utf8

/-- The bytes of a text are the bytes of its characters. -/
theorem encode_eq (s : String) : encode s = s.toList.flatMap String.utf8EncodeChar := by
  rw [encode, ← String.utf8Encode_toList]
  simp [List.utf8Encode]

theorem append_lt_append {as bs : List UInt8} (hlength : as.length = bs.length) (h : as < bs)
    (cs ds : List UInt8) : as ++ cs < bs ++ ds := by
  induction as generalizing bs with
  | nil =>
    obtain rfl := List.length_eq_zero_iff.mp hlength.symm
    exact absurd h (List.lt_irrefl _)
  | cons a as ih =>
    match bs with
    | b :: bs =>
      rw [List.cons_lt_cons_iff] at h
      rw [List.cons_append, List.cons_append, List.cons_lt_cons_iff]
      exact h.imp_right (And.imp_right (ih (Nat.succ.inj hlength)))

/-- **A greater character has the greater bytes**, whatever follows it. -/
theorem utf8EncodeChar_lt {c d : Char} (h : c < d) (cs ds : List UInt8) :
    String.utf8EncodeChar c ++ cs < String.utf8EncodeChar d ++ ds := by
  have hlt : c.val.toNat < d.val.toNat := h
  have hlimit : d.val.toNat < 0x110000 := by
    obtain hvalid | hvalid := d.valid <;> omega
  simp only [String.utf8EncodeChar]
  generalize c.val.toNat = v at *
  generalize d.val.toNat = w at *
  -- as many bytes, more of them, or fewer, which cannot be
  split_ifs <;> first
    | omega
    | refine append_lt_append (by rfl) ?_ cs ds
      simp only [List.cons_lt_cons_iff, UInt8.lt_iff_toNat_lt, ← UInt8.toNat_inj,
        UInt8.toNat_ofNat', List.lt_irrefl, and_false, or_false]
      -- the first digit leaves nothing over, so the digits give the character back
      simp (disch := omega) only [Nat.mod_eq_of_lt]
      omega
    | refine List.cons_lt_cons_iff.mpr (.inl ?_)
      simp only [UInt8.lt_iff_toNat_lt, UInt8.toNat_ofNat']
      omega

theorem flatMap_utf8EncodeChar_lt {cs ds : List Char} (h : cs < ds) :
    cs.flatMap String.utf8EncodeChar < ds.flatMap String.utf8EncodeChar := by
  induction h with
  | @nil d ds =>
    have hlength : 0 < (String.utf8EncodeChar d).length := by
      rw [String.length_utf8EncodeChar]; exact d.utf8Size_pos
    cases hbytes : String.utf8EncodeChar d with
    | nil => simp [hbytes] at hlength
    | cons => rw [List.flatMap_cons, hbytes]; exact List.nil_lt_cons _ _
  | rel h => exact utf8EncodeChar_lt h _ _
  | cons _ ih => exact List.append_left_lt ih

/-- **Texts are in the order of their bytes.** -/
theorem lt_iff_encode_lt {s t : String} : s < t ↔ encode s < encode t := by
  have hmono {s t : String} (h : s < t) : encode s < encode t := by
    rw [encode_eq, encode_eq]
    exact flatMap_utf8EncodeChar_lt (String.lt_iff_toList_lt.mp h)
  refine ⟨hmono, fun h => ?_⟩
  obtain hlt | rfl | hgt := lt_trichotomy s t
  · exact hlt
  · exact absurd h (List.lt_irrefl _)
  · exact absurd (hmono hgt) (List.lt_asymm h)

end Utf8

end Deposition
