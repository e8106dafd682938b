import Deposition.Proofs.Number.Order
import Deposition.Proofs.Number.Stored

/-!
# Products and quotients, rounded

A product or a quotient of two numbers is computed exactly as far as it is needed and then rounded
to the nearest number of the format. For what follows it is enough that it is rounded to one of the
two neighbours: then the error is at most one unit of the last bit, which is a fixed small part of
the result or, among the very smallest numbers, the smallest number of all
(`Deposition.Binary.Near`).
-/

namespace Deposition

namespace Binary

open Float.Model (UnpackedFloat)
open Float.Model.UnpackedFloat

/-! ### One rounding -/

/-- The exponent to which a significand is rounded. -/
def target (m : ℕ) (e : ℤ) : ℤ := max (e + m.log2 - 52) (-1074)

theorem targetExponent_eq (t : ℤ) :
    (Float.Model.Format.binary64).targetExponent t = max (t - 53) (-1074) := rfl

theorem targetExponent_totalExponent (m : ℕ) (e : ℤ) :
    (Float.Model.Format.binary64).targetExponent (Float.Model.totalExponent m e) = target m e := by
  rw [targetExponent_eq, Float.Model.totalExponent, target]
  omega

/-- Bits that are shifted out are divided away. -/
theorem mantissa_shiftRight (em : ExtendedMantissa) (k : ℕ) :
    (em >>> k).mantissa = em.mantissa / 2 ^ k := by
  induction k with
  | zero => exact (Nat.div_one _).symm
  | succ k ih =>
    have hstep : (em >>> (k + 1)).mantissa = (em >>> k).mantissa / 2 := rfl
    rw [hstep, ih, Nat.div_div_eq_div_mul, pow_succ]

/-- Zeros are shifted out without a trace. -/
theorem shiftRight_mul_two_pow (j k : ℕ) :
    ExtendedMantissa.mk (j * 2 ^ k) false false >>> k = ⟨j, false, false⟩ := by
  induction k generalizing j with
  | zero => rw [pow_zero, mul_one]; rfl
  | succ k ih =>
    have hstep : ExtendedMantissa.mk (j * 2 ^ (k + 1)) false false >>> (k + 1) =
        (ExtendedMantissa.mk (j * 2 * 2 ^ k) false false >>> k).shiftRightOne := by
      rw [mul_assoc, ← pow_succ']
      rfl
    rw [hstep, ih, ExtendedMantissa.shiftRightOne]
    simp

/-- A significand is rounded down or up. -/
theorem roundedMantissa_cases (em : ExtendedMantissa) :
    em.roundedMantissa = em.mantissa ∨ em.roundedMantissa = em.mantissa + 1 := by
  obtain ⟨m, round, sticky⟩ := em
  cases round <;> cases sticky
  · exact .inl rfl
  · exact .inl rfl
  · change m + m % 2 = m ∨ m + m % 2 = m + 1
    omega
  · exact .inr rfl

theorem mantissa_shiftToTargetExponent (m : ℕ) (e : ℤ) (a : Accuracy) :
    (shiftToTargetExponent .binary64 m e a).1.mantissa = m / 2 ^ (target m e - e).toNat := by
  have hstart : (ExtendedMantissa.ofMantissaAndAccuracy m a).mantissa = m := by
    cases a with
    | exact => rfl
    | inexact o => cases o <;> rfl
  rw [← targetExponent_totalExponent]
  exact (mantissa_shiftRight _ _).trans (by rw [hstart])

theorem exponent_shiftToTargetExponent (m : ℕ) (e : ℤ) (a : Accuracy) :
    (shiftToTargetExponent .binary64 m e a).2 = max e (target m e) := by
  have h : (shiftToTargetExponent .binary64 m e a).2 = e + (target m e - e).toNat := by
    rw [← targetExponent_totalExponent]
    rfl
  omega

/-- Where only zeros are cut off, nothing is rounded. -/
theorem roundedMantissa_shiftToTargetExponent {m : ℕ} {e : ℤ}
    (hdvd : 2 ^ (target m e - e).toNat ∣ m) :
    (shiftToTargetExponent .binary64 m e .exact).1.roundedMantissa =
      m / 2 ^ (target m e - e).toNat := by
  obtain ⟨j, hj⟩ := hdvd
  have hshift : (shiftToTargetExponent .binary64 m e .exact).1 =
      ExtendedMantissa.mk (j * 2 ^ (target m e - e).toNat) false false >>>
        (target m e - e).toNat := by
    rw [mul_comm j, ← hj, ← targetExponent_totalExponent]
    rfl
  rw [hshift, shiftRight_mul_two_pow, Nat.div_eq_of_eq_mul_right (Nat.two_pow_pos _) hj]
  rfl

/-- What is cut off at the target has no more bits than there is room for. -/
theorem div_lt_of_target (m : ℕ) (e : ℤ) : m / 2 ^ (target m e - e).toNat < 2 ^ 53 := by
  rw [Nat.div_lt_iff_lt_mul (Nat.two_pow_pos _), ← pow_add]
  have hlog : m.log2 + 1 ≤ 53 + (target m e - e).toNat := by
    unfold target
    omega
  exact Nat.lt_log2_self.trans_le (Nat.pow_le_pow_right two_pos hlog)

/-- **One rounding**: the significand is cut off at the target, or one more if something is lost; if
that makes it one bit longer, the exponent makes up for it. -/
theorem roundWithAccuracy_eq (negative : Bool) {m : ℕ} {e : ℤ} (a : Accuracy)
    (he : e ≤ target m e) :
    ∃ n, (n = m / 2 ^ (target m e - e).toNat ∨ n = m / 2 ^ (target m e - e).toNat + 1) ∧
      (a = .exact → 2 ^ (target m e - e).toNat ∣ m → n = m / 2 ^ (target m e - e).toNat) ∧
      roundWithAccuracy .binary64 (signOf negative) m e a =
        (if n = 2 ^ 53 then Value.finite negative (2 ^ 52) (target m e + 1)
          else Value.finite negative n (target m e)).unpacked := by
  obtain ⟨n, hn⟩ : ∃ n, (shiftToTargetExponent .binary64 m e a).1.roundedMantissa = n := ⟨_, rfl⟩
  have hcases := roundedMantissa_cases (shiftToTargetExponent .binary64 m e a).1
  have hexponent := exponent_shiftToTargetExponent m e a
  rw [hn, mantissa_shiftToTargetExponent] at hcases
  rw [max_eq_right he] at hexponent
  have hexact (ha : a = .exact) (hdvd : 2 ^ (target m e - e).toNat ∣ m) :
      n = m / 2 ^ (target m e - e).toNat := by
    rw [← hn, ha, roundedMantissa_shiftToTargetExponent hdvd]
  refine ⟨n, hcases, hexact, ?_⟩
  have hround : roundWithAccuracy .binary64 (signOf negative) m e a =
      (Value.finite negative (n / 2 ^ (target n (target m e) - target m e).toNat)
        (max (target m e) (target n (target m e)))).unpacked := by
    rw [← mantissa_shiftToTargetExponent n _ .exact, ← exponent_shiftToTargetExponent n _ .exact,
      ← hexponent, ← hn]
    unfold roundWithAccuracy Value.unpacked
    dsimp only
    split <;> split <;> first | rfl | omega
  rw [hround]
  have hlimit := div_lt_of_target m e
  have htarget : -1074 ≤ target m e := le_max_right _ _
  generalize target m e = t at *
  split
  · next hlong =>
    have hnext : target n t = t + 1 := by
      rw [hlong, target, Nat.log2_two_pow]
      omega
    rw [hnext, hlong, max_eq_right (by omega), add_sub_cancel_left]
    rfl
  · next hfits =>
    have hnext : target n t ≤ t := by
      have hlog : n.log2 ≤ 52 := by
        by_cases hzero : n = 0
        · rw [hzero, Nat.log2_zero]
          omega
        · exact Nat.lt_succ_iff.mp ((Nat.log2_lt hzero).mpr (by omega))
      unfold target
      omega
    rw [max_eq_left hnext, Int.toNat_of_nonpos (by omega), pow_zero, Nat.div_one]

/-! ### How far off a result is -/

/-- **The result of a computation**: where it is a number it is close to the exact value, and it is
one unless the exact value is large. -/
structure Near (y : Float) (z : ℚ) : Prop where
  /-- The error is a small part of the value, or very small. -/
  close : y.isFinite = true → |rational y - z| ≤ 2 ^ (-50 : ℤ) * |z| + 2 ^ (-1074 : ℤ)
  /-- There is a result. -/
  finite : |z| < 2 ^ (1023 : ℤ) → y.isFinite = true

/-- What is exact has an error smaller than one unit after it is cut off at the target, or one
more. -/
theorem abs_sub_le_of_target {m n : ℕ} {e : ℤ} {x : ℚ} (he : e ≤ target m e)
    (hx : m * 2 ^ e ≤ x) (hx' : x < (m + 1) * 2 ^ e)
    (hn : n = m / 2 ^ (target m e - e).toNat ∨ n = m / 2 ^ (target m e - e).toNat + 1) :
    |n * 2 ^ target m e - x| ≤ (2 : ℚ) ^ target m e := by
  obtain ⟨k, hk⟩ : ∃ k : ℕ, target m e = e + k := ⟨(target m e - e).toNat, by omega⟩
  have hshift : (target m e - e).toNat = k := by omega
  rw [hshift] at hn
  have hlow : m / 2 ^ k * 2 ^ k ≤ m := Nat.div_mul_le_self m _
  have hhigh : m + 1 ≤ (m / 2 ^ k + 1) * 2 ^ k :=
    Nat.lt_mul_of_div_lt (Nat.lt_succ_self _) (Nat.two_pow_pos k)
  have hlow' : ((m / 2 ^ k : ℕ) : ℚ) * 2 ^ k ≤ m := by exact_mod_cast hlow
  have hhigh' : (m : ℚ) + 1 ≤ ((m / 2 ^ k : ℕ) + 1) * 2 ^ k := by exact_mod_cast hhigh
  have hpos : (0 : ℚ) < 2 ^ e := by positivity
  rw [hk, zpow_add₀ two_ne_zero, zpow_natCast]
  generalize m / 2 ^ k = c at *
  have hbelow : (c : ℚ) * (2 ^ e * 2 ^ k) ≤ x := by
    calc (c : ℚ) * (2 ^ e * 2 ^ k) = c * 2 ^ k * 2 ^ e := by ring
      _ ≤ m * 2 ^ e := mul_le_mul_of_nonneg_right hlow' hpos.le
      _ ≤ x := hx
  have habove : x < ((c : ℚ) + 1) * (2 ^ e * 2 ^ k) := by
    calc x < (m + 1) * 2 ^ e := hx'
      _ ≤ (c + 1) * 2 ^ k * 2 ^ e := mul_le_mul_of_nonneg_right hhigh' hpos.le
      _ = (c + 1) * (2 ^ e * 2 ^ k) := by ring
  rw [abs_le]
  obtain rfl | rfl := hn
  · constructor <;> linarith
  · push_cast
    constructor <;> linarith

/-- A unit of the target is so many of the units before. -/
theorem two_zpow_target_eq {m : ℕ} {e : ℤ} (he : e ≤ target m e) :
    (2 : ℚ) ^ target m e = 2 ^ (target m e - e).toNat * 2 ^ e := by
  rw [← zpow_natCast, ← zpow_add₀ two_ne_zero]
  congr 1
  omega

/-- A unit of the last bit is a small part of what is rounded, or the smallest number. -/
theorem two_zpow_target_cases {m : ℕ} {e : ℤ} {x : ℚ} (he : e ≤ target m e) (hx : m * 2 ^ e ≤ x) :
    (2 : ℚ) ^ target m e ≤ 2 ^ (-50 : ℤ) * x ∨ target m e = -1074 := by
  obtain htarget | htarget := max_choice (e + m.log2 - 52) (-1074)
  · rw [target, htarget] at he ⊢
    have hm : m ≠ 0 := by
      rintro rfl
      rw [Nat.log2_zero] at he
      omega
    have hlog : (2 : ℚ) ^ (m.log2 : ℤ) ≤ m := by
      rw [zpow_natCast]
      exact_mod_cast Nat.log2_self_le hm
    left
    calc (2 : ℚ) ^ (e + m.log2 - 52) = 2 ^ (-52 : ℤ) * (2 ^ (m.log2 : ℤ) * 2 ^ e) := by
          rw [← zpow_add₀ two_ne_zero, ← zpow_add₀ two_ne_zero]
          congr 1
          ring
      _ ≤ 2 ^ (-50 : ℤ) * x :=
          mul_le_mul (zpow_le_zpow_right₀ one_le_two (by norm_num))
            ((mul_le_mul_of_nonneg_right hlog (by positivity)).trans hx) (by positivity)
            (by positivity)
  · exact .inr htarget

/-- A significand with all its bits, stored, is the number that it makes, if it is not too large. -/
theorem packed_cases (negative : Bool) {m : ℕ} {q : ℤ} (hm : m < 2 ^ 53) (hq : -1074 ≤ q)
    (hnormal : -1074 < q → 2 ^ 52 ≤ m) :
    q ≤ 971 ∧ (packed (Value.finite negative m q).unpacked).isFinite = true ∧
        rational (packed (Value.finite negative m q).unpacked) = Value.number negative m q ∨
      971 < q ∧ (packed (Value.finite negative m q).unpacked).isFinite = false := by
  obtain hle | hlt := le_or_gt q 971
  · refine .inl ⟨hle, ?_⟩
    rw [isFinite_eq, Value.unpacked]
    split
    · next hpos =>
      have hvalue := (number_iff.mpr ⟨hm, hq, hle, hnormal⟩).ofFloat_packed negative hpos
      exact ⟨by rw [hvalue]; rfl, rational_eq hvalue⟩
    · next hzero =>
      have hvalue := ofFloat_packed_zero negative
      rw [rational_eq hvalue, hvalue, Nat.eq_zero_of_not_pos hzero]
      exact ⟨rfl, by simp [Value.number]⟩
  · have hpos : 0 < m := (Nat.two_pow_pos 52).trans_le (hnormal (by omega))
    refine .inr ⟨hlt, ?_⟩
    rw [isFinite_eq, Value.unpacked, dif_pos hpos, ofFloat_packed_of_lt negative hpos hlt]
    rfl

section Rounded

variable {m : ℕ} {e : ℤ} (he : e ≤ target m e)

include he

theorem ne_zero_of_lt_target (hlt : -1074 < target m e) : m ≠ 0 := by
  rintro rfl
  rw [target, Nat.log2_zero] at he hlt
  omega

/-- What is cut off above the smallest unit has all its bits. -/
theorem two_pow_le_div_of_lt_target (hlt : -1074 < target m e) :
    2 ^ 52 ≤ m / 2 ^ (target m e - e).toNat := by
  have hshift : 52 + (target m e - e).toNat = m.log2 := by
    unfold target at hlt he ⊢
    omega
  rw [Nat.le_div_iff_mul_le (Nat.two_pow_pos _), ← pow_add, hshift]
  exact Nat.log2_self_le (ne_zero_of_lt_target he hlt)

/-- The unit of what is not too large is none of the largest. -/
theorem target_le_of_lt {x : ℚ} (hx : m * 2 ^ e ≤ x) (hsmall : x < 2 ^ (1023 : ℤ)) :
    target m e ≤ 970 := by
  by_contra hlarge
  have hm := ne_zero_of_lt_target he (by omega)
  have hleading : (2 : ℚ) ^ (e + m.log2) ≤ x := by
    refine le_trans ?_ hx
    rw [add_comm, zpow_add₀ two_ne_zero, zpow_natCast]
    exact mul_le_mul_of_nonneg_right (by exact_mod_cast Nat.log2_self_le hm) (by positivity)
  have := (zpow_lt_zpow_iff_right₀ one_lt_two).mp (hleading.trans_lt hsmall)
  unfold target at hlarge
  omega

/-- **What is stored** is the rounded significand with its exponent, whether it got one bit longer
or not. -/
theorem exists_stored (negative : Bool) (a : Accuracy) : ∃ n m' q,
    (n = m / 2 ^ (target m e - e).toNat ∨ n = m / 2 ^ (target m e - e).toNat + 1) ∧
      (a = .exact → 2 ^ (target m e - e).toNat ∣ m → n = m / 2 ^ (target m e - e).toNat) ∧
      roundWithAccuracy .binary64 (signOf negative) m e a =
        (Value.finite negative m' q).unpacked ∧
      (m' : ℚ) * 2 ^ q = n * 2 ^ target m e ∧ (q = target m e ∨ q = target m e + 1) ∧
      m' < 2 ^ 53 ∧ (-1074 < q → 2 ^ 52 ≤ m') := by
  obtain ⟨n, hn, hexact, hround⟩ := roundWithAccuracy_eq negative a he
  have hroom := div_lt_of_target m e
  by_cases hlong : n = 2 ^ 53
  · refine ⟨n, 2 ^ 52, _, hn, hexact, by rw [hround, if_pos hlong], ?_, .inr rfl, by norm_num,
      fun _ => le_rfl⟩
    rw [hlong, zpow_add_one₀ two_ne_zero]
    push_cast
    ring
  · refine ⟨n, n, _, hn, hexact, by rw [hround, if_neg hlong], rfl, .inl rfl, by omega,
      fun hlt => ?_⟩
    have hfull := two_pow_le_div_of_lt_target he hlt
    omega

/-- **What one rounding gives** is off by one unit at most, and exact if nothing is cut off. -/
theorem exists_rounded (negative : Bool) (a : Accuracy) {x : ℚ} (hx : m * 2 ^ e ≤ x)
    (hx' : x < (m + 1) * 2 ^ e) :
    ∃ v : ℚ, |v - x| ≤ 2 ^ target m e ∧
      (a = .exact → 2 ^ (target m e - e).toNat ∣ m → v = m * 2 ^ e) ∧
      ((packed (roundWithAccuracy .binary64 (signOf negative) m e a)).isFinite = true →
        rational (packed (roundWithAccuracy .binary64 (signOf negative) m e a)) =
          if negative then -v else v) ∧
      (x < 2 ^ (1023 : ℤ) →
        (packed (roundWithAccuracy .binary64 (signOf negative) m e a)).isFinite = true) := by
  obtain ⟨n, m', q, hn, hexact, hstored, hvalue, hq, hm', hnormal⟩ := exists_stored he negative a
  have hunit : -1074 ≤ target m e := le_max_right _ _
  refine ⟨n * 2 ^ target m e, abs_sub_le_of_target he hx hx' hn, fun ha hdvd => ?_, ?_⟩
  · rw [two_zpow_target_eq he, ← mul_assoc, hexact ha hdvd]
    exact_mod_cast congrArg (fun k : ℕ => (k : ℚ) * 2 ^ e) (Nat.div_mul_cancel hdvd)
  · rw [hstored]
    obtain ⟨-, hfinite, hrational⟩ | ⟨hlt, hfinite⟩ :=
      packed_cases negative hm' (by omega) hnormal
    · rw [hrational, Value.number, mul_assoc, hvalue]
      exact ⟨fun _ => by split <;> ring, fun _ => hfinite⟩
    · refine ⟨fun hfinite' => absurd (hfinite'.symm.trans hfinite) Bool.noConfusion,
        fun hsmall => ?_⟩
      have := target_le_of_lt he hx hsmall
      omega

end Rounded

section Near

variable (negative : Bool) {m : ℕ} {e : ℤ} (he : e ≤ target m e)

include he

/-- **One rounding brings a value to one that is near.** -/
theorem near_roundWithAccuracy (a : Accuracy) {x : ℚ} (hx : m * 2 ^ e ≤ x)
    (hx' : x < (m + 1) * 2 ^ e) (hpos : 0 < x) :
    Near (packed (roundWithAccuracy .binary64 (signOf negative) m e a))
      (if negative then -x else x) := by
  obtain ⟨v, herror, -, hvalue, hlarge⟩ := exists_rounded he negative a hx hx'
  have habs : |if negative then -x else x| = x := by
    split <;> simp [abs_of_pos hpos]
  have hsign : |(if negative then -v else v) - if negative then -x else x| = |v - x| := by
    cases negative
    · rfl
    · simp [neg_add_eq_sub, abs_sub_comm]
  refine ⟨fun hfinite => ?_, fun hsmall => hlarge (habs ▸ hsmall)⟩
  rw [hvalue hfinite, hsign, habs]
  refine herror.trans ?_
  obtain hpart | hunit := two_zpow_target_cases he hx
  · exact hpart.trans (le_add_of_nonneg_right (by positivity))
  · rw [hunit]
    exact le_add_of_nonneg_left (by positivity)

/-- A multiple of the smallest number is rounded with a small error, if it is rounded at all. -/
theorem close_roundWithAccuracy {j : ℕ} {y : Float}
    (hmultiple : (m : ℚ) * 2 ^ e = j * 2 ^ (-1074 : ℤ))
    (hy : y = packed (roundWithAccuracy .binary64 (signOf negative) m e .exact))
    (hfinite : y.isFinite = true) :
    |rational y - Value.number negative m e| ≤ 2 ^ (-50 : ℤ) * (m * 2 ^ e) := by
  subst hy
  have hbelow : (m : ℚ) * 2 ^ e < (m + 1) * 2 ^ e :=
    mul_lt_mul_of_pos_right (lt_add_one _) (by positivity)
  obtain ⟨v, herror, hexact, hvalue, -⟩ := exists_rounded he negative .exact le_rfl hbelow
  have hsign : |(if negative then -v else v) - Value.number negative m e| = |v - m * 2 ^ e| := by
    rw [Value.number]
    cases negative
    · simp
    · simp [neg_add_eq_sub, abs_sub_comm]
  rw [hvalue hfinite, hsign]
  obtain hpart | hunit := two_zpow_target_cases he le_rfl
  · exact herror.trans hpart
  · have hdvd : 2 ^ (target m e - e).toNat ∣ m := by
      rw [← hunit, two_zpow_target_eq he, ← mul_assoc, mul_left_inj' (by positivity)] at hmultiple
      exact Dvd.intro_left j (by exact_mod_cast hmultiple.symm)
    rw [hexact rfl hdvd, sub_self, abs_zero]
    positivity

end Near

end Binary

end Deposition
