import Deposition.Proofs.Number.Scaling
import Deposition.Setting.Range

/-!
# The nearest whole number

A number in double precision is rounded to a whole one by its value, and the whole number is written
down again. There is always room for it, since a number with a fraction has fewer bits before the
point than there are in all: the result is a number, it is whole, and it is at most a half away
(`Deposition.Setting.nearestWhole_spec`). What is whole already stays as it is
(`Deposition.Setting.nearestWhole_of_whole`), and so does what is no number or infinite.
-/

namespace Deposition

namespace Binary

/-! ### Whole numbers, written down -/

/-- **A number that is written down reads back.** -/
theorem Format.Number.ofFloat_toFloat {m : ℕ} {q : ℤ} (h : double.Number m q) (negative : Bool)
    (hm : 0 < m) : ofFloat (toFloat (.finite negative m q)) = .finite negative m q := by
  have hvalue := h.ofFloat_packed negative hm
  have hfinite : (packed (.finite (signOf negative) m q hm)).isFinite = true := by
    rw [isFinite_eq, hvalue]
    rfl
  rw [← hvalue, toFloat_ofFloat hfinite]

theorem toFloat_zero (negative : Bool) (q : ℤ) :
    toFloat (.finite negative 0 q) = packed (.zero (signOf negative)) := by
  have hvalue := ofFloat_packed_zero negative
  have hfinite : (packed (.zero (signOf negative))).isFinite = true := by
    rw [isFinite_eq, hvalue]
    rfl
  have hencode : double.encode (.finite negative 0 q) =
      double.encode (.finite negative 0 (-1074)) := by
    simp only [Format.encode, Format.encodeMagnitude, if_true]
  rw [← toFloat_ofFloat hfinite, hvalue, toFloat, toFloat, hencode]

/-- A whole number is shifted until it has all its bits. -/
theorem exists_shifted {k : ℕ} (hk : 0 < k) (hlt : k < 2 ^ 53) :
    ∃ s : ℕ, double.Number (k * 2 ^ s) (-s) ∧
      double.encodeMagnitude k 0 = double.encodeMagnitude (k * 2 ^ s) (-s) := by
  have hlog : k.log2 ≤ 52 := Nat.lt_succ_iff.mp ((Nat.log2_lt hk.ne').mpr hlt)
  obtain ⟨s, hs⟩ : ∃ s, k.log2 + s = 52 := ⟨52 - k.log2, by omega⟩
  have hnumber : double.Number (k * 2 ^ s) (-s) := by
    refine number_iff.mpr ⟨?_, by omega, by omega, fun _ => ?_⟩
    · calc k * 2 ^ s < 2 ^ (k.log2 + 1) * 2 ^ s :=
            Nat.mul_lt_mul_of_pos_right Nat.lt_log2_self (Nat.two_pow_pos s)
        _ = 2 ^ 53 := by rw [← pow_add, add_right_comm, hs]
    · calc 2 ^ 52 = 2 ^ k.log2 * 2 ^ s := by rw [← pow_add, hs]
        _ ≤ k * 2 ^ s := Nat.mul_le_mul_right _ (Nat.log2_self_le hk.ne')
  refine ⟨s, hnumber, ?_⟩
  have hfraction : double.fraction = 52 := rfl
  have hexponent : max (0 + (k.log2 : ℤ) - (52 : ℕ)) (-1074) = -s := by omega
  have hshift : (0 + (s : ℤ)).toNat = s := by omega
  have hlimit := (number_iff.mp hnumber).1
  rw [hnumber.encodeMagnitude_eq]
  simp only [Format.encodeMagnitude, if_neg hk.ne', double_unit, hfraction, double_infinity,
    hexponent, Left.neg_nonpos_iff, Nat.cast_nonneg, if_true, Nat.pow_eq, sub_neg_eq_add, hshift]
  omega

/-- **Every whole number that has room is a number.** -/
theorem exists_toFloat_whole (negative : Bool) {k : ℕ} (hlt : k < 2 ^ 53) :
    ∃ m q, ofFloat (toFloat (.finite negative k 0)) = .finite negative m q ∧
      (m : ℚ) * 2 ^ q = k := by
  obtain rfl | hk := Nat.eq_zero_or_pos k
  · refine ⟨0, -1074, ?_, by simp⟩
    rw [toFloat_zero, ofFloat_packed_zero]
  · obtain ⟨s, hnumber, hencode⟩ := exists_shifted hk hlt
    refine ⟨k * 2 ^ s, -s, ?_, ?_⟩
    · rw [← hnumber.ofFloat_toFloat negative (by positivity)]
      simp only [toFloat, Format.encode, hencode]
    · push_cast
      rw [mul_assoc, zpow_neg, zpow_natCast, mul_inv_cancel₀ (by positivity), mul_one]

/-! ### Rounding to a whole number -/

/-- The integer nearest to a quotient is at most a half away. -/
theorem abs_roundHalfUp_sub_le {num den : ℕ} (hden : 0 < den) :
    |(roundHalfUp num den : ℚ) - num / den| ≤ 1 / 2 := by
  have hlow : roundHalfUp num den * (2 * den) ≤ 2 * num + den := Nat.div_mul_le_self _ _
  have hhigh : 2 * num + den < (roundHalfUp num den + 1) * (2 * den) :=
    Nat.lt_mul_of_div_lt (Nat.lt_succ_self _) (by positivity)
  generalize roundHalfUp num den = k at *
  have hden' : (0 : ℚ) < den := by exact_mod_cast hden
  have hlow' : (k : ℚ) * (2 * den) ≤ 2 * num + den := by exact_mod_cast hlow
  have hhigh' : (2 : ℚ) * num + den < (k + 1) * (2 * den) := by exact_mod_cast hhigh
  rw [sub_div' hden'.ne', abs_div, abs_of_pos hden', div_le_iff₀ hden', abs_le]
  constructor <;> linarith

end Binary

namespace Setting

open Binary

variable {x : Float}

theorem nearestWhole_nan (hx : ofFloat x = .nan) : ofFloat (nearestWhole x) = .nan := by
  rw [nearestWhole, hx]
  rfl

theorem nearestWhole_infinite {negative : Bool} (hx : ofFloat x = .infinite negative) :
    ofFloat (nearestWhole x) = .infinite negative := by
  rw [nearestWhole, hx]
  cases negative <;> rfl

section Finite

variable (hx : x.isFinite = true)

include hx

/-- **The nearest whole number** is a number, and at most a half away. -/
theorem nearestWhole_spec : (nearestWhole x).isFinite = true ∧
    ∃ k : ℤ, rational (nearestWhole x) = k ∧ |k - rational x| ≤ 1 / 2 := by
  obtain ⟨negative, m, q, hvalue⟩ := exists_of_isFinite (isFinite_eq x ▸ hx)
  by_cases hq : 0 ≤ q
  · have hsame : nearestWhole x = x := by
      rw [nearestWhole, hvalue, Value.round, if_pos hq, ← hvalue, toFloat_ofFloat hx]
    obtain ⟨e, rfl⟩ := Int.eq_ofNat_of_zero_le hq
    rw [hsame, rational_eq hvalue, Value.number_eq]
    exact ⟨hx, Value.signed negative m * 2 ^ e, by push_cast; rfl, by simp⟩
  · obtain ⟨e, rfl⟩ : ∃ e : ℕ, q = -(e + 1 : ℕ) := ⟨(-q - 1).toNat, by omega⟩
    have hpow : (-(-(e + 1 : ℕ) : ℤ)).toNat = e + 1 := by omega
    have hnear := @abs_roundHalfUp_sub_le m _ (Nat.two_pow_pos (e + 1))
    have hroom : roundHalfUp m (2 ^ (e + 1)) < 2 ^ 53 := by
      have hm := (number_iff.mp (Format.Number.of_decode (by decide) hvalue)).1
      have hlow : roundHalfUp m (2 ^ (e + 1)) * (2 * 2 ^ (e + 1)) ≤ 2 * m + 2 ^ (e + 1) :=
        Nat.div_mul_le_self _ _
      have hpos := Nat.two_pow_pos e
      rw [pow_succ] at hlow ⊢
      nlinarith
    obtain ⟨m', q', hwritten, hm'⟩ := exists_toFloat_whole negative hroom
    have hwhole : ofFloat (nearestWhole x) = .finite negative m' q' := by
      rw [nearestWhole, hvalue, Value.round, if_neg hq, Nat.pow_eq, hpow, hwritten]
    rw [rational_eq hwhole, rational_eq hvalue, isFinite_eq, hwhole]
    refine ⟨rfl, Value.signed negative (roundHalfUp m (2 ^ (e + 1))), ?_, ?_⟩
    · rw [Value.number, mul_assoc, hm', Value.signed]
      split <;> simp
    · rw [Value.number, mul_assoc, zpow_neg, zpow_natCast, ← div_eq_mul_inv, Value.signed]
      push_cast at hnear
      split
      · push_cast
        rw [neg_one_mul, sub_neg_eq_add, neg_add_eq_sub, abs_sub_comm]
        exact hnear
      · push_cast
        rwa [one_mul]

/-- **What is whole stays as it is.** -/
theorem nearestWhole_of_whole {k : ℤ} (hk : rational x = k) : nearestWhole x = x := by
  obtain ⟨hfinite, k', hk', hnear⟩ := nearestWhole_spec hx
  by_cases hzero : rational x = 0
  · obtain ⟨negative, q, hvalue⟩ := exists_of_zero hx hzero
    have hround : ∃ q', (ofFloat x).round = .finite negative 0 q' := by
      rw [hvalue, Value.round]
      split
      · exact ⟨q, rfl⟩
      · have hnone : roundHalfUp 0 (2 ^ (-q).toNat) = 0 :=
          Nat.div_eq_of_lt (by have := Nat.two_pow_pos (-q).toNat; omega)
        exact ⟨0, by rw [Nat.pow_eq, hnone]⟩
    obtain ⟨q', hround⟩ := hround
    rw [nearestWhole, hround, toFloat_zero, ← toFloat_zero negative q, ← hvalue,
      toFloat_ofFloat hx]
  · rw [hk, ← Int.cast_sub, ← Int.cast_abs] at hnear
    have hsame : |k' - k| < 1 := by
      have : ((|k' - k| : ℤ) : ℚ) < 1 := by linarith
      exact_mod_cast this
    rw [Int.abs_lt_one_iff, sub_eq_zero] at hsame
    exact eq_of_rational_eq hfinite hx (by rw [hk', hk, hsame]) (by rwa [hk', hsame, ← hk])

end Finite

end Setting

end Deposition
