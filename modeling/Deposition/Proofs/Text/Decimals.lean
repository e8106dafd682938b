import Deposition.Text.Blank
import Mathlib.Algebra.Order.Ring.Nat
import Mathlib.Data.List.Basic
import Mathlib.Data.List.Induction
import Mathlib.Data.List.TakeWhile

/-!
# Whole numbers in decimal digits

A number that came as text is a run of ASCII digits, perhaps with zeros in front of it and with
blanks around it. This file says what such a text denotes without the reader: the decimal digits of
a number are those that the number is printed with, and any run of digits is the digits of one
number with zeros in front (`Deposition.Text.DigitRun.exists_zeros`). A reader of whole numbers
accepts exactly these texts (`Deposition.Text.wholeNumber?_eq_some_iff`), and the blanks around a
text are taken off and nothing else is (`Deposition.Text.trim_eq_iff`). Both together say which
texts give a number with blanks around it (`Deposition.Text.wholeNumber?_trim_eq_some_iff`).
-/

namespace Deposition

namespace Text

/-! ### Digits -/

/-- Digits, and not none of them. -/
def DigitRun (cs : List Char) : Prop := cs ≠ [] ∧ ∀ c ∈ cs, isDigit c = true

theorem isDigit_iff {c : Char} : isDigit c = true ↔ c.isDigit = true := by
  simp only [isDigit, Char.isDigit, Bool.and_eq_true, decide_eq_true_eq, ge_iff_le,
    UInt32.le_iff_toNat_le]
  rfl

theorem digitRun_toDigits (n : Nat) : DigitRun (Nat.toDigits 10 n) :=
  ⟨Nat.toDigits_ne_nil, fun _ hc =>
    isDigit_iff.mpr (Nat.isDigit_of_mem_toDigits (by decide) (by decide) hc)⟩

/-- A digit is the one that its value is written with. -/
theorem digitChar_digitValue {c : Char} (h : isDigit c = true) :
    Nat.digitChar (digitValue c) = c ∧ digitValue c < 10 := by
  simp only [isDigit, Bool.and_eq_true, decide_eq_true_eq] at h
  have hvalue : digitValue c < 10 := by
    unfold digitValue
    omega
  refine ⟨Char.toNat_inj.mp ?_, hvalue⟩
  rw [← Nat.sub_add_cancel h.1]
  change _ = digitValue c + 48
  generalize digitValue c = d at hvalue ⊢
  revert d
  decide

theorem digitsValue_eq (cs : List Char) : digitsValue cs = Nat.ofDigitChars 10 cs 0 := rfl

@[simp] theorem digitsValue_toDigits (n : Nat) : digitsValue (Nat.toDigits 10 n) = n :=
  Nat.ofDigitChars_ten_toDigits

theorem digitsValue_append_singleton (cs : List Char) (c : Char) :
    digitsValue (cs ++ [c]) = 10 * digitsValue cs + digitValue c := by
  simp [digitsValue]

@[simp] theorem digitsValue_zeros_append (k : Nat) (cs : List Char) :
    digitsValue (List.replicate k '0' ++ cs) = digitsValue cs := by
  simp [digitsValue_eq, Nat.ofDigitChars_append]

theorem digitsValue_append (cs ds : List Char) :
    digitsValue (cs ++ ds) = digitsValue cs * 10 ^ ds.length + digitsValue ds := by
  rw [digitsValue_eq, Nat.ofDigitChars_append, Nat.ofDigitChars_eq_ofDigitChars_zero,
    Nat.mul_comm]
  rfl

/-- A number other than zero is not printed with a zero in front. -/
theorem head?_toDigits_ne {n : Nat} (hn : n ≠ 0) : (Nat.toDigits 10 n).head? ≠ some '0' := by
  induction n using Nat.strongRecOn with
  | ind n ih =>
    obtain hlt | hle := Nat.lt_or_ge n 10
    · have hdigit : ∀ d < 10, d ≠ 0 → [Nat.digitChar d].head? ≠ some '0' := by decide
      rw [Nat.toDigits_of_lt_base hlt]
      exact hdigit n hlt hn
    · rw [Nat.toDigits_of_base_le (by decide) hle,
        List.head?_append_of_ne_nil _ Nat.toDigits_ne_nil]
      exact ih _ (Nat.div_lt_self (by omega) (by decide)) (by omega)

/-- **A run of digits is a number in decimal**, with zeros in front or without. -/
theorem DigitRun.exists_zeros {cs : List Char} (h : DigitRun cs) :
    ∃ k, cs = List.replicate k '0' ++ Nat.toDigits 10 (digitsValue cs) := by
  obtain ⟨hne, hdigits⟩ := h
  induction cs using List.reverseRecOn with
  | nil => exact absurd rfl hne
  | append_singleton cs c ih =>
    obtain ⟨hchar, hlt⟩ := digitChar_digitValue (hdigits c (by simp))
    rw [digitsValue_append_singleton]
    by_cases hcs : cs = []
    · exact ⟨0, by simp [hcs, digitsValue, Nat.toDigits_of_lt_base hlt, hchar]⟩
    · obtain ⟨k, hk⟩ := ih hcs fun d hd => hdigits d (by simp [hd])
      generalize digitsValue cs = n at hk ⊢
      obtain rfl | hn := Nat.eq_zero_or_pos n
      · -- only zeros so far, so that one more of them stands in front
        refine ⟨k + 1, ?_⟩
        rw [hk, Nat.mul_zero, Nat.zero_add, Nat.toDigits_of_lt_base hlt, hchar, Nat.toDigits_zero,
          List.replicate_succ']
      · refine ⟨k, ?_⟩
        rw [← Nat.toDigits_append_toDigits (by decide) hn hlt, Nat.toDigits_of_lt_base hlt, hchar,
          ← List.append_assoc, ← hk]

/-- Without zeros in front there is one way to write a number. -/
theorem DigitRun.eq_toDigits {cs : List Char} (h : DigitRun cs) (hhead : cs.head? ≠ some '0') :
    cs = Nat.toDigits 10 (digitsValue cs) := by
  obtain ⟨k, hk⟩ := h.exists_zeros
  cases k with
  | zero => simpa using hk
  | succ k =>
    rw [hk] at hhead
    exact absurd rfl hhead

/-! ### Whole numbers -/

/-- **A whole number as it may be given**: a plus sign or none, and its digits, with zeros in front
or without. -/
def NumeralOf (n : Nat) (cs : List Char) : Prop :=
  ∃ sign k, (sign = [] ∨ sign = ['+']) ∧ cs = sign ++ (List.replicate k '0' ++ Nat.toDigits 10 n)

theorem digitRun_zeros_append (k n : Nat) :
    DigitRun (List.replicate k '0' ++ Nat.toDigits 10 n) := by
  refine ⟨by simp, fun c hc => ?_⟩
  obtain hc | hc := List.mem_append.mp hc
  · rw [List.eq_of_mem_replicate hc]
    rfl
  · exact (digitRun_toDigits n).2 c hc

/-- A sign, if there is one, stands in front of digits. -/
theorem DigitRun.ne_plus {cs ds : List Char} (h : DigitRun cs) : cs ≠ '+' :: ds := by
  rintro rfl
  cases h.2 '+' List.mem_cons_self

/-- The digits of a whole number that is not too large. -/
theorem digits_eq_some_iff {limit n : Nat} {cs : List Char} :
    (if cs.isEmpty || !cs.all isDigit then none
      else if limit < digitsValue cs then none else some (digitsValue cs)) = some n ↔
      (∃ k, cs = List.replicate k '0' ++ Nat.toDigits 10 n) ∧ n ≤ limit := by
  by_cases hrun : DigitRun cs
  · rw [if_neg (by simpa [DigitRun] using hrun)]
    obtain ⟨k, hk⟩ := hrun.exists_zeros
    constructor
    · intro h
      rw [Option.ite_none_left_eq_some, Option.some.injEq, Nat.not_lt] at h
      obtain ⟨hle, rfl⟩ := h
      exact ⟨⟨k, hk⟩, hle⟩
    · rintro ⟨⟨k', rfl⟩, hle⟩
      simp [hle]
  · rw [if_pos (by simpa [DigitRun, or_iff_not_imp_left] using hrun)]
    constructor
    · intro h
      cases h
    · rintro ⟨⟨k, rfl⟩, -⟩
      exact absurd (digitRun_zeros_append k n) hrun

/-- **The texts that are read as whole numbers.** -/
theorem wholeNumber?_eq_some_iff {limit n : Nat} {s : String} :
    wholeNumber? limit s = some n ↔ NumeralOf n s.toList ∧ n ≤ limit := by
  unfold wholeNumber?
  rw [digits_eq_some_iff]
  refine and_congr_left fun _ => ?_
  generalize s.toList = cs
  constructor
  · rintro ⟨k, hk⟩
    split at hk
    · exact ⟨['+'], k, .inr rfl, by rw [hk]; rfl⟩
    · exact ⟨[], k, .inl rfl, hk⟩
  · rintro ⟨sign, k, rfl | rfl, rfl⟩
    · refine ⟨k, ?_⟩
      split
      · next heq => exact absurd heq (digitRun_zeros_append k n).ne_plus
      · rfl
    · exact ⟨k, rfl⟩

/-! ### Blanks -/

/-- Blanks, or nothing. -/
def Blanks (cs : List Char) : Prop := ∀ c ∈ cs, isBlank c = true

/-- A text that neither begins nor ends with a blank. -/
def Bare (cs : List Char) : Prop :=
  (∀ c ∈ cs.head?, isBlank c = false) ∧ ∀ c ∈ cs.getLast?, isBlank c = false

theorem dropWhile_append_of_bare {before cs : List Char} (hbefore : Blanks before)
    (hcs : ∀ c ∈ cs.head?, isBlank c = false) : (before ++ cs).dropWhile isBlank = cs := by
  rw [List.dropWhile_append_of_pos hbefore]
  cases cs with
  | nil => rfl
  | cons c cs => exact List.dropWhile_cons_of_neg (by simp [hcs c rfl])

/-- **What is between the blanks is what is left of a text.** -/
theorem trimChars_append {before cs after : List Char} (hbefore : Blanks before) (hcs : Bare cs)
    (hafter : Blanks after) : trimChars (before ++ cs ++ after) = cs := by
  have hlast : ∀ c ∈ cs.reverse.head?, isBlank c = false := by simpa using hcs.2
  rw [trimChars, List.append_assoc]
  by_cases hnil : cs = []
  · have hblanks : ∀ c ∈ before ++ after, isBlank c = true := fun c hc =>
      (List.mem_append.mp hc).elim (hbefore c) (hafter c)
    rw [hnil, List.nil_append, List.dropWhile_eq_nil_iff.mpr hblanks]
    rfl
  · have hhead : ∀ c ∈ (cs ++ after).head?, isBlank c = false := by simpa [hnil] using hcs.1
    rw [dropWhile_append_of_bare hbefore hhead, List.reverse_append,
      dropWhile_append_of_bare (by simpa [Blanks] using hafter) hlast, List.reverse_reverse]

/-- Only blanks are taken off. -/
theorem exists_trimChars (cs : List Char) :
    ∃ before after, Blanks before ∧ Blanks after ∧ cs = before ++ trimChars cs ++ after := by
  refine ⟨cs.takeWhile isBlank, ((cs.dropWhile isBlank).reverse.takeWhile isBlank).reverse,
    fun _ hc => List.mem_takeWhile_imp hc,
    fun _ hc => List.mem_takeWhile_imp (List.mem_reverse.mp hc), ?_⟩
  rw [trimChars, List.append_assoc, ← List.reverse_append, List.takeWhile_append_dropWhile,
    List.reverse_reverse, List.takeWhile_append_dropWhile]

/-- **A text is read through its blanks** as what stands between them. -/
theorem trim_eq_iff {s t : String} (ht : Bare t.toList) :
    trim s = t ↔
      ∃ before after, Blanks before ∧ Blanks after ∧ s.toList = before ++ t.toList ++ after := by
  constructor
  · rintro rfl
    simpa [trim] using exists_trimChars s.toList
  · rintro ⟨before, after, hbefore, hafter, hs⟩
    rw [trim, hs, trimChars_append hbefore ht hafter, String.ofList_toList]

theorem isBlank_of_isDigit {c : Char} (h : isDigit c = true) : isBlank c = false := by
  simp only [isDigit, Bool.and_eq_true, decide_eq_true_eq] at h
  simp [isBlank]
  omega

/-- A whole number begins with its sign or a digit and ends with a digit. -/
theorem NumeralOf.bare {n : Nat} {cs : List Char} (h : NumeralOf n cs) : Bare cs := by
  obtain ⟨sign, k, hsign, rfl⟩ := h
  obtain ⟨hne, hdigits⟩ := digitRun_zeros_append k n
  generalize List.replicate k '0' ++ Nat.toDigits 10 n = ds at hne hdigits
  have hlast : ∀ c ∈ ds.getLast?, isBlank c = false := fun c hc =>
    isBlank_of_isDigit (hdigits c (List.mem_of_getLast? hc))
  have hhead : ∀ c ∈ ds.head?, isBlank c = false := fun c hc =>
    isBlank_of_isDigit (hdigits c (List.mem_of_head? hc))
  obtain rfl | rfl := hsign
  · exact ⟨hhead, hlast⟩
  · refine ⟨fun c hc => ?_, fun c hc => hlast c ?_⟩
    · obtain rfl : '+' = c := by simpa using hc
      rfl
    · cases ds with
      | nil => exact absurd rfl hne
      | cons d ds => exact hc

/-- **The texts that are read as whole numbers once the blanks are off.** -/
theorem wholeNumber?_trim_eq_some_iff {limit n : Nat} {s : String} :
    wholeNumber? limit (trim s) = some n ↔
      (∃ before core after, Blanks before ∧ NumeralOf n core ∧ Blanks after ∧
        s.toList = before ++ core ++ after) ∧ n ≤ limit := by
  rw [wholeNumber?_eq_some_iff]
  refine and_congr_left fun _ => ?_
  constructor
  · intro h
    obtain ⟨before, after, hbefore, hafter, hs⟩ := (trim_eq_iff h.bare).mp rfl
    exact ⟨before, _, after, hbefore, h, hafter, hs⟩
  · rintro ⟨before, core, after, hbefore, hcore, hafter, hs⟩
    have htrim : trim s = String.ofList core :=
      (trim_eq_iff (by simpa using hcore.bare)).mpr
        ⟨before, after, hbefore, hafter, by simpa using hs⟩
    simpa [htrim] using hcore

/-! ### What a text begins with -/

theorem after?_eq_some_iff {start s rest : String} :
    after? start s = some rest ↔ s = start ++ rest := by
  simp only [after?, Option.ite_none_right_eq_some, List.isPrefixOf_iff_prefix,
    Option.some.injEq, ← String.toList_inj, String.toList_ofList, String.toList_append]
  constructor
  · rintro ⟨⟨cs, hcs⟩, hrest⟩
    rw [← hcs, ← String.length_toList, List.drop_left] at hrest
    rw [← hcs, hrest]
  · intro hs
    rw [hs, ← String.length_toList, List.drop_left]
    exact ⟨List.prefix_append _ _, rfl⟩

end Text

end Deposition
