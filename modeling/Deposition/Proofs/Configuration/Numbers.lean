import Deposition.Configuration
import Mathlib.Data.List.Basic

/-!
# How the value of a setting is printed

A value is printed in fixed places or with the fewest digits that read back, and it may be no number
at all. Of the digits nothing is needed here; it is enough which characters there are and where. A
text of this kind is *plain*: digits and letters, not none of them, with one point at most
(`Deposition.Layout.Plain`); in front of it there may be a minus sign, and nowhere else is there
one. Both ways of printing give such a text, for every value
(`Deposition.Layout.signed_fixedText`, `Deposition.Layout.signed_plainText`).
-/

namespace Deposition

namespace Layout

/-- **Digits and letters with one point at most**, and not nothing. -/
structure Plain (cs : List Char) : Prop where
  /-- There is something. -/
  ne_nil : cs ≠ []
  /-- It is digits and letters, and points. -/
  alphanum : ∀ c ∈ cs, c.isAlphanum = true ∨ c = '.'
  /-- There is one point at most. -/
  count_le : cs.count '.' ≤ 1

instance (cs : List Char) : Decidable (Plain cs) :=
  have := List.decidableBAll (fun c => c.isAlphanum = true ∨ c = '.') cs
  decidable_of_iff (cs ≠ [] ∧ (∀ c ∈ cs, c.isAlphanum = true ∨ c = '.') ∧ cs.count '.' ≤ 1)
    ⟨fun ⟨hne, halphanum, hcount⟩ => ⟨hne, halphanum, hcount⟩,
      fun h => ⟨h.ne_nil, h.alphanum, h.count_le⟩⟩

/-- A text that is plain behind its sign, if it has one. -/
def Signed (s : String) : Prop :=
  ∃ cs, Plain cs ∧ (s.toList = cs ∨ s.toList = '-' :: cs)

section Signed

variable {s : String}

theorem Signed.ne_empty (h : Signed s) : s.toList ≠ [] := by
  obtain ⟨cs, hcs, heq | heq⟩ := h
  · rw [heq]
    exact hcs.ne_nil
  · rw [heq]
    exact List.cons_ne_nil _ _

/-- The characters of such a text. -/
theorem Signed.alphanum (h : Signed s) {c : Char} (hc : c ∈ s.toList) :
    c.isAlphanum = true ∨ c = '.' ∨ c = '-' := by
  obtain ⟨cs, hcs, heq | heq⟩ := h
  · rw [heq] at hc
    exact (hcs.alphanum c hc).imp_right .inl
  · rw [heq, List.mem_cons] at hc
    obtain rfl | hc := hc
    · exact .inr (.inr rfl)
    · exact (hcs.alphanum c hc).imp_right .inl

theorem Signed.count_le (h : Signed s) : s.toList.count '.' ≤ 1 := by
  obtain ⟨cs, hcs, heq | heq⟩ := h
  · rw [heq]
    exact hcs.count_le
  · rw [heq, List.count_cons_of_ne (by decide)]
    exact hcs.count_le

end Signed

/-- Digits and nothing else. -/
def Digits (cs : List Char) : Prop := ∀ c ∈ cs, c.isDigit = true

theorem digits_digitChars (n : Nat) : Digits (digitChars n) := fun _ hc =>
  Nat.isDigit_of_mem_toDigits (by decide) (by decide) hc

theorem digits_toString (n : Nat) : Digits (toString n).toList := by
  rw [Nat.toString_eq_repr, Nat.toList_repr]
  exact digits_digitChars n

theorem digits_zeros (n : Nat) : Digits (zeros n) := fun c hc => by
  rw [List.eq_of_mem_replicate hc]
  rfl

theorem Digits.append {cs ds : List Char} (hcs : Digits cs) (hds : Digits ds) :
    Digits (cs ++ ds) := fun c hc => (List.mem_append.mp hc).elim (hcs c) (hds c)

theorem Digits.sublist {cs ds : List Char} (hds : Digits ds) (h : cs.Sublist ds) : Digits cs :=
  fun c hc => hds c (h.subset hc)

theorem Digits.notMem {cs : List Char} (h : Digits cs) {c : Char} (hc : c.isDigit = false) :
    c ∉ cs := fun hmem => by
  rw [h c hmem] at hc
  cases hc

theorem Digits.count_eq {cs : List Char} (h : Digits cs) : cs.count '.' = 0 :=
  List.count_eq_zero.mpr (h.notMem rfl)

/-- Digits are plain. -/
theorem Digits.plain {cs : List Char} (h : Digits cs) (hne : cs ≠ []) : Plain cs where
  ne_nil := hne
  alphanum c hc := .inl (by simp [Char.isAlphanum, h c hc])
  count_le := by
    rw [h.count_eq]
    exact Nat.zero_le 1

/-- Digits with a point among them are plain. -/
theorem Digits.plain_point {cs ds : List Char} (hcs : Digits cs) (hds : Digits ds) :
    Plain (cs ++ '.' :: ds) where
  ne_nil := by simp
  alphanum c hc := by
    rw [List.mem_append, List.mem_cons] at hc
    obtain hc | rfl | hc := hc
    · exact .inl (by simp [Char.isAlphanum, hcs c hc])
    · exact .inr rfl
    · exact .inl (by simp [Char.isAlphanum, hds c hc])
  count_le := by
    refine Nat.le_of_eq ?_
    rw [List.count_append, List.count_cons_self, hcs.count_eq, hds.count_eq]

theorem digitChars_ne_nil (n : Nat) : digitChars n ≠ [] := Nat.toDigits_ne_nil

theorem plain_positionalText (d : Decimal) : Plain (positionalText false d) := by
  have hdigits := digits_digitChars d.digits
  simp only [positionalText, Bool.false_eq_true, if_false, List.append_nil]
  split
  · exact (hdigits.append (digits_zeros _)).plain (by simp [digitChars_ne_nil])
  split
  · exact (hdigits.sublist (List.take_sublist ..)).plain_point
      (hdigits.sublist (List.drop_sublist ..))
  · exact (digits_zeros 1).plain_point ((digits_zeros _).append hdigits)

/-- A text with a sign if it is negative, and plain behind it. -/
theorem signed_ofList {cs : List Char} (negative : Bool) (h : Plain cs) :
    Signed (String.ofList (if negative then '-' :: cs else cs)) := by
  cases negative
  · exact ⟨cs, h, .inl String.toList_ofList⟩
  · exact ⟨cs, h, .inr String.toList_ofList⟩

theorem signed_nan : Signed "NaN" := ⟨['N', 'a', 'N'], by decide, .inl rfl⟩

theorem signed_infinite (negative : Bool) : Signed (if negative then "-" ++ "inf" else "inf") := by
  have hinf : Plain ['i', 'n', 'f'] := by decide
  cases negative
  · exact ⟨_, hinf, .inl rfl⟩
  · exact ⟨_, hinf, .inr rfl⟩

/-- **The fewest digits that read back**, or a word, behind a sign or none. -/
theorem signed_plainText (x : Float) : Signed (plainText x) := by
  rw [plainText]
  cases Binary.ofFloat x with
  | nan => exact signed_nan
  | infinite negative => exact signed_infinite negative
  | finite negative m q =>
    refine signed_ofList negative ?_
    split
    · exact (digits_zeros 1).plain (by decide)
    · exact plain_positionalText _

/-- **Fixed places**, or a word, behind a sign or none. -/
theorem signed_fixed (places : Nat) (v : Binary.Value) : Signed (fixed places v) := by
  cases v with
  | nan => exact signed_nan
  | infinite negative => exact signed_infinite negative
  | finite negative m q =>
    refine signed_ofList negative ?_
    have hdigits (n units : Nat) : Digits (zeros n ++ digitChars units) :=
      (digits_zeros n).append (digits_digitChars units)
    split
    · next hplaces =>
      -- without places nothing is cut off, so there is at least one digit
      refine ((hdigits _ _).sublist (List.take_sublist ..)).plain ?_
      simp [hplaces, digitChars_ne_nil]
    · exact ((hdigits _ _).sublist (List.take_sublist ..)).plain_point
        ((hdigits _ _).sublist (List.drop_sublist ..))

theorem signed_fixedText (places : Nat) (x : Float) : Signed (fixedText places x) :=
  signed_fixed places (Binary.ofFloat x)

end Layout

/-- **The part of a setting in a job name**, in whichever way it is printed. -/
theorem Configuration.signed_settingPart (s : Setting) : Layout.Signed (settingPart s) := by
  rw [settingPart]
  split
  · exact Layout.signed_fixedText _ _
  · exact Layout.signed_plainText _

end Deposition
