import Deposition.Number.Reader
import Deposition.Proofs.Number.Shortest
import Deposition.Proofs.Text.Decimals

/-!
# What a numeral is read as

A numeral is a number whatever its digits are, and it is read as the nearest double-precision one.
The reader looks at the size of the numeral first, and leaves out the computation where only zero or
infinity can come of it. This file shows that it does not do so too early: a numeral in the interval
of a number is read as that number (`Deposition.Numeral.value_eq_of_mem`).
-/

namespace Deposition

namespace Numeral

/-- The number that a numeral is, its sign aside. -/
def magnitude (n : Numeral) : ℚ :=
  Text.digitsValue (n.whole ++ n.fraction) * 10 ^ (n.exponent - n.fraction.length)

/-! ### Digits without zeros in front -/

theorem digitsValue_dropZeros (cs : List Char) :
    Text.digitsValue (cs.dropWhile (· == '0')) = Text.digitsValue cs := by
  induction cs with
  | nil => rfl
  | cons c cs ih =>
    rw [List.dropWhile_cons]
    split
    · next hzero =>
      rw [eq_of_beq hzero, ih]
      exact (Text.digitsValue_zeros_append 1 cs).symm
    · rfl

/-- **As many digits as a number has**, once the zeros in front are off. -/
theorem length_dropZeros {cs : List Char} (hdigits : ∀ c ∈ cs, Text.isDigit c = true)
    (hpos : 0 < Text.digitsValue cs) :
    ∃ k, (cs.dropWhile (· == '0')).length = k + 1 ∧ 10 ^ k ≤ Text.digitsValue cs ∧
      Text.digitsValue cs < 10 ^ (k + 1) := by
  rw [← digitsValue_dropZeros cs] at hpos ⊢
  have hzero := List.head?_dropWhile_not (· == '0') cs
  have hdigits' : ∀ c ∈ cs.dropWhile (· == '0'), Text.isDigit c = true := fun c hc =>
    hdigits c ((List.dropWhile_sublist _).subset hc)
  generalize cs.dropWhile (· == '0') = ds at *
  have hne : ds ≠ [] := by
    rintro rfl
    exact absurd hpos (by decide)
  have heq : ds = Nat.toDigits 10 (Text.digitsValue ds) :=
    Text.DigitRun.eq_toDigits ⟨hne, hdigits'⟩ fun hhead => by simp [hhead] at hzero
  obtain ⟨k, hk⟩ : ∃ k, ds.length = k + 1 := Nat.exists_eq_add_one.mpr (List.length_pos_iff.mpr hne)
  refine ⟨k, hk, ?_, ?_⟩
  · obtain rfl | hkpos := Nat.eq_zero_or_pos k
    · exact hpos
    · rw [← not_lt, ← Nat.length_toDigits_le_iff (by decide) hkpos, ← heq]
      omega
  · rw [← Nat.length_toDigits_le_iff (by decide) (Nat.succ_pos k), ← heq]
    omega

/-! ### Size -/

section Size

variable {m : ℕ} {q : ℤ} {x : ℚ}

open Shortest

/-- The interval of a positive double-precision number is away from zero and from infinity. -/
theorem mem_bounds (h : Binary.double.Number m q) (hm : 0 < m)
    (hx : (Interval.around Binary.double m q).Mem q x) :
    (2 : ℚ) ^ (-1075 : ℤ) ≤ x ∧ x < 2 ^ (1024 : ℤ) := by
  have hpow : (0 : ℚ) < 2 ^ q := by positivity
  have hm' : (1 : ℚ) ≤ m := by exact_mod_cast hm
  have hlt : m < 2 ^ (52 + 1) := h.lt
  have hlt' : (m : ℚ) + 1 ≤ 2 ^ (53 : ℤ) := by exact_mod_cast hlt
  obtain ⟨hlow, hhigh⟩ := abs_le.mp (hx.near hm).1
  constructor
  · calc (2 : ℚ) ^ (-1075 : ℤ) = 1 / 2 * 2 ^ (-1074 : ℤ) := by
          rw [show (-1075 : ℤ) = -1074 - 1 by rfl, zpow_sub_one₀ two_ne_zero]
          ring
      _ ≤ 1 / 2 * 2 ^ q := by
        gcongr
        · exact one_le_two
        · exact Binary.double_unit ▸ h.unit_le
      _ ≤ x := by
        rw [← le_div_iff₀ hpow]
        linarith
  · calc x ≤ (m + 1 / 2) * 2 ^ q := by
          rw [← div_le_iff₀ hpow]
          linarith
      _ < 2 ^ (53 : ℤ) * 2 ^ q := by
        gcongr
        linarith
      _ ≤ 2 ^ (53 : ℤ) * 2 ^ (971 : ℤ) := by
        gcongr
        · exact one_le_two
        · exact Binary.double_limit ▸ h.le_limit
      _ = 2 ^ (1024 : ℤ) := by rw [← zpow_add₀ two_ne_zero]; rfl

/-- What lies between two powers of ten and away from zero and infinity is neither too small nor too
large to be looked at. -/
theorem leading_bounds {e : ℤ} (hten : (10 : ℚ) ^ (e - 1) ≤ x) (hten' : x < 10 ^ e)
    (hlow : (2 : ℚ) ^ (-1075 : ℤ) ≤ x) (hhigh : x < 2 ^ (1024 : ℤ)) :
    ¬e < -330 ∧ ¬310 < e := by
  constructor
  · intro hlt
    have hsmall : (10 : ℚ) ^ (-331 : ℤ) ≤ 2 ^ (-1099 + 4 : ℤ) :=
      ten_zpow_le (by decide) (by decide) (by decide)
    have hle : (2 : ℚ) ^ (-1099 + 4 : ℤ) ≤ 2 ^ (-1075 : ℤ) :=
      zpow_le_zpow_right₀ one_le_two (by decide)
    have hpower : (10 : ℚ) ^ e ≤ 10 ^ (-331 : ℤ) := zpow_le_zpow_right₀ (by norm_num) (by omega)
    exact absurd (hpower.trans (hsmall.trans (hle.trans hlow))) (not_le.mpr hten')
  · intro hlt
    have hsmall : (10 : ℚ) ^ (-310 : ℤ) ≤ 2 ^ (-1029 + 4 : ℤ) :=
      ten_zpow_le (by decide) (by decide) (by decide)
    have hle : (2 : ℚ) ^ (-1029 + 4 : ℤ) ≤ 2 ^ (-1024 : ℤ) :=
      zpow_le_zpow_right₀ one_le_two (by decide)
    have hlarge : (2 : ℚ) ^ (1024 : ℤ) ≤ 10 ^ (310 : ℤ) := by
      have hinv := hsmall.trans hle
      rwa [zpow_neg, zpow_neg, inv_le_inv₀ (by positivity) (by positivity)] at hinv
    have hpower : (10 : ℚ) ^ (310 : ℤ) ≤ 10 ^ (e - 1) :=
      zpow_le_zpow_right₀ (by norm_num) (by omega)
    exact absurd (hlarge.trans (hpower.trans hten)) (not_le.mpr hhigh)

end Size

/-! ### The value of a numeral -/

variable {m : ℕ} {q : ℤ} {n : Numeral}

open Shortest in
/-- **A numeral in the interval of a number is read as that number.** -/
theorem value_eq_of_mem (hdigits : ∀ c ∈ n.whole ++ n.fraction, Text.isDigit c = true)
    (h : Binary.double.Number m q) (hm : 0 < m)
    (hx : (Interval.around Binary.double m q).Mem q n.magnitude) :
    n.value = .finite n.negative m q := by
  obtain ⟨scale, hscale⟩ : ∃ scale : ℤ, scale = n.exponent - n.fraction.length := ⟨_, rfl⟩
  obtain ⟨v, hv⟩ : ∃ v, v = Text.digitsValue (n.whole ++ n.fraction) := ⟨_, rfl⟩
  have hmagnitude : n.magnitude = v * 10 ^ scale := by rw [magnitude, hv, hscale]
  obtain ⟨hlow, hhigh⟩ := mem_bounds h hm hx
  have hvpos : 0 < v := by
    have : 0 < n.magnitude := lt_of_lt_of_le (by positivity) hlow
    rw [hmagnitude] at this
    exact_mod_cast pos_of_mul_pos_left this (by positivity)
  obtain ⟨k, hk, hkle, hklt⟩ := length_dropZeros hdigits (hv ▸ hvpos)
  rw [← hv] at hkle hklt
  obtain ⟨hsmall, hlarge⟩ : ¬((k + 1 : ℕ) + scale < -330) ∧ ¬(310 < (k + 1 : ℕ) + scale) := by
    refine leading_bounds ?_ ?_ hlow hhigh
    · rw [show ((k + 1 : ℕ) + scale - 1 : ℤ) = (k : ℕ) + scale by push_cast; ring,
        zpow_add₀ (by norm_num), zpow_natCast, hmagnitude]
      gcongr
      exact_mod_cast hkle
    · rw [zpow_add₀ (by norm_num), zpow_natCast, hmagnitude]
      gcongr
      exact_mod_cast hklt
  have hne : (n.whole ++ n.fraction).dropWhile (· == '0') ≠ [] := by
    intro hnil
    simp [hnil] at hk
  simp only [value, ← hscale, hk, List.isEmpty_eq_false_iff.mpr hne, digitsValue_dropZeros, ← hv,
    hsmall, hlarge, Bool.false_or, decide_false, Bool.false_eq_true, if_false]
  refine h.nearest_eq hm _ (by simp [Nat.pow_eq]) ?_
  have hten := Binary.zpow_eq_div (show 0 < 10 by decide) scale
  rw [Nat.cast_ofNat] at hten
  rw [Nat.cast_mul, mul_div_assoc, Nat.pow_eq, Nat.pow_eq, ← hten, ← hmagnitude]
  exact hx

/-- A numeral that is zero is read as zero, with its sign. -/
theorem value_eq_zero (hdigits : ∀ c ∈ n.whole ++ n.fraction, Text.isDigit c = true)
    (hzero : n.magnitude = 0) : n.value = .finite n.negative 0 Binary.double.unit := by
  have hdigitsValue : Text.digitsValue (n.whole ++ n.fraction) = 0 := by
    simpa [magnitude, zpow_ne_zero] using hzero
  have hnil : (n.whole ++ n.fraction).dropWhile (· == '0') = [] := by
    by_contra hne
    have hhead := List.head?_dropWhile_not (· == '0') (n.whole ++ n.fraction)
    rw [← digitsValue_dropZeros] at hdigitsValue
    have hrun : Text.DigitRun ((n.whole ++ n.fraction).dropWhile (· == '0')) :=
      ⟨hne, fun c hc => hdigits c ((List.dropWhile_sublist _).subset hc)⟩
    rw [hrun.eq_toDigits fun h => by simp [h] at hhead, hdigitsValue] at hhead
    cases hhead
  simp [value, hnil]

end Numeral

end Deposition
