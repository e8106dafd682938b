import Deposition.Proofs.Number.Rounding

/-!
# Scaling by a positive number

A number is multiplied by a positive one, or divided by one: either is a scaling by a positive
factor that is exact but for one rounding (`Deposition.Binary.Scales`). What holds of scaling is
said once for both: what is no number, and what is infinite, stays so, zeros keep their signs, and
any other number goes to one that is near to its exact multiple.
-/

namespace Deposition

namespace Binary

open Float.Model (UnpackedFloat)
open Float.Model.UnpackedFloat

/-- **A function that scales**: it multiplies by a positive number and rounds once. -/
structure Scales (f : Float → Float) (c : ℚ) : Prop where
  /-- The factor is positive. -/
  pos : 0 < c
  /-- What is no number stays none. -/
  nan {x : Float} : ofFloat x = .nan → ofFloat (f x) = .nan
  /-- Infinity stays where it is. -/
  infinite {x : Float} {negative : Bool} :
    ofFloat x = .infinite negative → ofFloat (f x) = .infinite negative
  /-- Zero keeps its sign. -/
  zero {x : Float} : x.isFinite = true → rational x = 0 → f x = x
  /-- A number stays one, or gets infinite. -/
  ne_nan {x : Float} : x.isFinite = true → ofFloat (f x) ≠ .nan
  /-- The result is near to the exact one. -/
  near {x : Float} : x.isFinite = true → Near (f x) (rational x * c)

/-- A sign is kept by a positive factor. -/
theorem signOf_div_positive (negative : Bool) :
    signOf negative / Sign.positive = signOf negative := by
  cases negative <;> rfl

theorem packed_unpacked (x : Float) : packed (ofFloat x).unpacked = x := by
  rw [← unpack_eq, packed_unpack]

/-- A number that is not zero has a positive significand. -/
theorem exists_of_ne_zero {x : Float} (hx : x.isFinite = true) (hne : rational x ≠ 0) :
    ∃ negative m q, ofFloat x = .finite negative m q ∧ 0 < m := by
  obtain ⟨negative, m, q, hvalue⟩ := exists_of_isFinite (isFinite_eq x ▸ hx)
  refine ⟨negative, m, q, hvalue, Nat.pos_of_ne_zero ?_⟩
  rintro rfl
  exact hne (by rw [rational_eq hvalue, Value.number, Nat.cast_zero, mul_zero, zero_mul])

/-- Zeros, with their signs. -/
theorem exists_of_zero {x : Float} (hx : x.isFinite = true) (hzero : rational x = 0) :
    ∃ negative q, ofFloat x = .finite negative 0 q := by
  obtain ⟨negative, m, q, hvalue⟩ := exists_of_isFinite (isFinite_eq x ▸ hx)
  rw [rational_eq hvalue, Value.number] at hzero
  obtain rfl : m = 0 := by
    cases negative <;> simpa [zpow_ne_zero] using hzero
  exact ⟨negative, q, hvalue⟩

theorem ne_nan_of_isFinite {x : Float} (hx : x.isFinite = true) : ofFloat x ≠ .nan := by
  intro hvalue
  rw [isFinite_eq, hvalue] at hx
  cases hx

/-- What is scaled to a number was one. -/
theorem Scales.isFinite_of {f : Float → Float} {c : ℚ} (h : Scales f c) {x : Float}
    (hx : (f x).isFinite = true) : x.isFinite = true := by
  rw [isFinite_eq] at hx ⊢
  cases hvalue : ofFloat x with
  | nan => rwa [h.nan hvalue] at hx
  | infinite negative => rwa [h.infinite hvalue] at hx
  | finite negative m q => rfl

/-- What is infinite is not scaled to no number either. -/
theorem Scales.ne_nan' {f : Float → Float} {c : ℚ} (h : Scales f c) {x : Float}
    (hx : ofFloat x ≠ .nan) : ofFloat (f x) ≠ .nan := by
  cases hvalue : ofFloat x with
  | nan => exact absurd hvalue hx
  | infinite negative =>
    rw [h.infinite hvalue]
    exact Value.noConfusion
  | finite negative m q => exact h.ne_nan (by rw [isFinite_eq, hvalue]; rfl)

/-- What is rounded is a number. -/
theorem roundWithAccuracy_ne_notANumber (s : Sign) (m : ℕ) (e : ℤ) (a : Accuracy) :
    roundWithAccuracy .binary64 s m e a ≠ .notANumber := by
  unfold roundWithAccuracy
  dsimp only
  split <;> exact UnpackedFloat.noConfusion

/-- **An operation scales** if it is exact but for its last step, which rounds. -/
theorem Scales.of_rounded {f : Float → Float} {c : ℚ} (op : UnpackedFloat → UnpackedFloat)
    (hop : ∀ x, f x = packed (op (ofFloat x).unpacked)) (hpos : 0 < c)
    (hnan : op .notANumber = .notANumber) (hinfinity : ∀ s, op (.infinity s) = .infinity s)
    (hzero : ∀ s, op (.zero s) = .zero s)
    (hround : ∀ negative m q (hm : 0 < m), double.Number m q → ∃ m' e a,
      op (.finite (signOf negative) m q hm) = roundWithAccuracy .binary64 (signOf negative) m' e a ∧
      e ≤ target m' e ∧ m' * 2 ^ e ≤ m * 2 ^ q * c ∧ m * 2 ^ q * c < (m' + 1) * 2 ^ e) :
    Scales f c := by
  have hkeep {x : Float} (hx : x.isFinite = true) (hvalue : rational x = 0) : f x = x := by
    obtain ⟨negative, q, hvalue⟩ := exists_of_zero hx hvalue
    have hunpacked : (ofFloat x).unpacked = .zero (signOf negative) := by
      rw [hvalue]
      rfl
    rw [hop, hunpacked, hzero, ← hunpacked, packed_unpacked]
  refine ⟨hpos, fun {x} hx => ?nan, fun {x negative} hx => ?infinite, hkeep, fun {x} hx => ?ne_nan,
    fun {x} hx => ?near⟩
  case nan =>
    rw [hop, hx, Value.unpacked, hnan]
    rfl
  case infinite => rw [hop, hx, Value.unpacked, hinfinity, ofFloat_packed_infinity]
  case ne_nan =>
    by_cases hvalue : rational x = 0
    · rw [hkeep hx hvalue]
      exact ne_nan_of_isFinite hx
    · rw [hop]
      apply ofFloat_packed_ne_nan
      obtain ⟨negative, m, q, hvalue, hm⟩ := exists_of_ne_zero hx hvalue
      obtain ⟨m', e, a, heq, -⟩ :=
        hround negative m q hm (Format.Number.of_decode (by decide) hvalue)
      rw [hvalue, Value.unpacked, dif_pos hm, heq]
      exact roundWithAccuracy_ne_notANumber _ _ _ _
  case near =>
    by_cases hvalue : rational x = 0
    · rw [hkeep hx hvalue, hvalue, zero_mul]
      refine ⟨fun _ => ?_, fun _ => hx⟩
      rw [hvalue, sub_zero, abs_zero, mul_zero, zero_add]
      positivity
    obtain ⟨negative, m, q, hvalue, hm⟩ := exists_of_ne_zero hx hvalue
    obtain ⟨m', e, a, heq, he, hbelow, habove⟩ :=
      hround negative m q hm (Format.Number.of_decode (by decide) hvalue)
    have hproduct : rational x * c = if negative then -(m * 2 ^ q * c) else m * 2 ^ q * c := by
      rw [rational_eq hvalue, Value.number]
      split <;> ring
    rw [hop, hvalue, Value.unpacked, dif_pos hm, heq, hproduct]
    exact near_roundWithAccuracy negative he a hbelow habove (by positivity)

/-- A product is cut off above its last bit. -/
theorem add_le_target {m m' : ℕ} {q q' : ℤ} (hn : double.Number m q) (hn' : double.Number m' q')
    (hm : 0 < m) (hm' : 0 < m') : q + q' ≤ target (m * m') (q + q') := by
  obtain ⟨-, hunit, -, hnormal⟩ := number_iff.mp hn
  obtain ⟨-, hunit', -, hnormal'⟩ := number_iff.mp hn'
  have hlong : 2 ^ 52 ≤ m * m' → q + q' ≤ target (m * m') (q + q') := by
    intro hfull
    have := (Nat.le_log2 (Nat.mul_pos hm hm').ne').mpr hfull
    exact le_max_of_le_left (by omega)
  by_cases hq : -1074 < q
  · exact hlong ((hnormal hq).trans (Nat.le_mul_of_pos_right m hm'))
  by_cases hq' : -1074 < q'
  · exact hlong ((hnormal' hq').trans (Nat.le_mul_of_pos_left m' hm))
  · exact le_max_of_le_right (by omega)

/-- A quotient is computed far enough to be cut off. -/
theorem exists_divCore {m m' : ℕ} (q q' : ℤ) (hm : 0 < m) (hm' : 0 < m') :
    ∃ (n : ℕ) (e : ℤ) (a : Accuracy), divCore .binary64 m q m' q' = (n, e, a) ∧ e ≤ target n e ∧
      (n : ℚ) * 2 ^ e ≤ (m : ℚ) * 2 ^ q * ((m' : ℚ) * 2 ^ q')⁻¹ ∧
      (m : ℚ) * 2 ^ q * ((m' : ℚ) * 2 ^ q')⁻¹ < ((n : ℚ) + 1) * 2 ^ e := by
  obtain ⟨e, he⟩ : ∃ e, e = min (q - q') (max (q + m.log2 - (q' + m'.log2) - 53) (-1074)) :=
    ⟨_, rfl⟩
  obtain ⟨k, hk⟩ : ∃ k : ℕ, q = e + q' + k := ⟨(q - q' - e).toNat, by omega⟩
  have hquotient : (m : ℚ) * 2 ^ q * ((m' : ℚ) * 2 ^ q')⁻¹ = m * 2 ^ k / m' * 2 ^ e := by
    rw [hk, zpow_add₀ two_ne_zero, zpow_add₀ two_ne_zero, zpow_natCast]
    field_simp
  have hm'' : (0 : ℚ) < m' := by exact_mod_cast hm'
  refine ⟨m * 2 ^ k / m', e, accuracyOfFraction (m * 2 ^ k % m') m', ?_, ?_, ?_, ?_⟩
  · have hexponent : e = min (q - q') ((Float.Model.Format.binary64).targetExponent
        (Float.Model.totalExponent m q - Float.Model.totalExponent m' q')) := by
      rw [he, targetExponent_eq, Float.Model.totalExponent, Float.Model.totalExponent]
      congr 3
      ring
    have hshift : (q - q' - e).toNat = k := by omega
    rw [← Nat.shiftLeft_eq, ← hshift]
    unfold divCore
    dsimp only
    rw [← hexponent]
  · by_cases hunit : e ≤ -1074
    · exact le_max_of_le_right hunit
    -- the quotient has all its bits
    · have hlog : m'.log2 + 1 + 52 ≤ m.log2 + k := by omega
      have hfull : 2 ^ 52 ≤ m * 2 ^ k / m' := by
        rw [Nat.le_div_iff_mul_le hm']
        calc 2 ^ 52 * m' ≤ 2 ^ 52 * 2 ^ (m'.log2 + 1) :=
              Nat.mul_le_mul_left _ Nat.lt_log2_self.le
          _ = 2 ^ (m'.log2 + 1 + 52) := by rw [← pow_add, add_comm]
          _ ≤ 2 ^ (m.log2 + k) := Nat.pow_le_pow_right two_pos hlog
          _ ≤ m * 2 ^ k := by
              rw [pow_add]
              exact Nat.mul_le_mul_right _ (Nat.log2_self_le hm.ne')
      have := (Nat.le_log2 (Nat.pos_of_ne_zero (by omega)).ne').mpr hfull
      exact le_max_of_le_left (by omega)
  · rw [hquotient]
    refine mul_le_mul_of_nonneg_right ?_ (by positivity)
    rw [le_div_iff₀ hm'']
    exact_mod_cast Nat.div_mul_le_self (m * 2 ^ k) m'
  · rw [hquotient]
    refine mul_lt_mul_of_pos_right ?_ (by positivity)
    rw [div_lt_iff₀ hm'']
    exact_mod_cast Nat.lt_mul_of_div_lt (Nat.lt_succ_self _) hm'

theorem mul_eq_packed (x y : Float) :
    x * y = packed (UnpackedFloat.mul .binary64 (ofFloat x).unpacked (ofFloat y).unpacked) := by
  rw [← unpack_eq, ← unpack_eq]
  rfl

theorem div_eq_packed (x y : Float) :
    x / y = packed (UnpackedFloat.div .binary64 (ofFloat x).unpacked (ofFloat y).unpacked) := by
  rw [← unpack_eq, ← unpack_eq]
  rfl

/-- Two significands are multiplied. -/
theorem mul_finite (negative : Bool) {m m' : ℕ} (q q' : ℤ) (hm : 0 < m) (hm' : 0 < m') :
    UnpackedFloat.mul .binary64 (.finite (signOf negative) m q hm) (.finite .positive m' q' hm') =
      roundWithAccuracy .binary64 (signOf negative) (m * m') (q + q') .exact := by
  cases negative <;> rfl

section Factor

variable {y : Float} (hy : y.isFinite = true) (hpos : 0 < rational y)

include hy hpos

/-- A positive number. -/
theorem exists_of_pos : ∃ m q, ∃ hm : 0 < m, double.Number m q ∧ rational y = m * 2 ^ q ∧
    (ofFloat y).unpacked = .finite .positive m q hm := by
  obtain ⟨negative, m, q, hvalue, hm⟩ := exists_of_ne_zero hy hpos.ne'
  have hnumber := Format.Number.of_decode (by decide) hvalue
  rw [rational_eq hvalue, Value.number] at hpos ⊢
  cases negative with
  | false => exact ⟨m, q, hm, hnumber, by simp, by rw [hvalue, Value.unpacked, dif_pos hm]; rfl⟩
  | true =>
    have : 0 ≤ (m : ℚ) * 2 ^ q := by positivity
    simp only [if_true, neg_mul] at hpos
    linarith

/-- **Multiplying by a positive number** scales. -/
theorem scales_mul : Scales (· * y) (rational y) := by
  obtain ⟨m', q', hm', hn', hvalue, hfactor⟩ := exists_of_pos hy hpos
  refine .of_rounded (fun u => UnpackedFloat.mul .binary64 u (ofFloat y).unpacked)
    (fun x => mul_eq_packed x y) hpos (by rw [hfactor]; rfl)
    (fun s => by rw [hfactor]; cases s <;> rfl) (fun s => by rw [hfactor]; cases s <;> rfl)
    (fun negative m q hm hn => ?_)
  refine ⟨m * m', q + q', .exact, ?_, add_le_target hn hn' hm hm', ?_⟩
  · rw [hfactor, mul_finite]
  · have hexact : m * 2 ^ q * rational y = (m * m' : ℕ) * 2 ^ (q + q') := by
      rw [hvalue, zpow_add₀ two_ne_zero]
      push_cast
      ring
    rw [hexact]
    exact ⟨le_rfl, mul_lt_mul_of_pos_right (lt_add_one _) (by positivity)⟩

/-- **A whole multiple of a number** has a small error, even where the number is among the very
smallest ones: it is a multiple of the smallest number of all. -/
theorem abs_mul_sub_le_of_whole {z : Float} (hz : z.isFinite = true) {k : ℤ}
    (hk : rational z = k) (hfinite : (z * y).isFinite = true) :
    |rational (z * y) - rational z * rational y| ≤ 2 ^ (-50 : ℤ) * |rational z * rational y| := by
  by_cases hzero : rational z = 0
  · rw [(scales_mul hy hpos).zero hz hzero, hzero, zero_mul, sub_zero, abs_zero, mul_zero]
  obtain ⟨m', q', hm', hn', hvalue', hfactor⟩ := exists_of_pos hy hpos
  obtain ⟨negative, m, q, hvalue, hm⟩ := exists_of_ne_zero hz hzero
  have hn := Format.Number.of_decode (by decide) hvalue
  have hrounded : z * y =
      packed (roundWithAccuracy .binary64 (signOf negative) (m * m') (q + q') .exact) := by
    rw [mul_eq_packed, hvalue, Value.unpacked, dif_pos hm, hfactor, mul_finite]
  have hproduct : rational z * rational y = Value.number negative (m * m') (q + q') := by
    rw [rational_eq hvalue, hvalue', Value.number, Value.number, zpow_add₀ two_ne_zero]
    push_cast
    ring
  have hsize : |rational z * rational y| = (m * m' : ℕ) * 2 ^ (q + q') := by
    rw [hproduct, Value.number]
    cases negative
    · rw [if_neg Bool.false_ne_true, one_mul, abs_of_pos (by positivity)]
    · rw [if_pos rfl, neg_one_mul, neg_mul, abs_neg, abs_of_pos (by positivity)]
  have hmultiple : ((m * m' : ℕ) : ℚ) * 2 ^ (q + q') =
      (k.natAbs * m' * 2 ^ (q' + 1074).toNat : ℕ) * 2 ^ (-1074 : ℤ) := by
    have hunit := (number_iff.mp hn').2.1
    have hsplit : (2 : ℚ) ^ q' = 2 ^ (q' + 1074).toNat * 2 ^ (-1074 : ℤ) := by
      rw [← zpow_natCast, ← zpow_add₀ two_ne_zero]
      congr 1
      omega
    rw [← hsize, abs_mul, abs_of_pos hpos, hk, hvalue', hsplit]
    generalize (2 : ℚ) ^ (-1074 : ℤ) = smallest
    push_cast [Nat.cast_natAbs]
    ring
  have hclose := close_roundWithAccuracy negative (add_le_target hn hn' hm hm') hmultiple hrounded
    hfinite
  rwa [← hproduct, ← hsize] at hclose

/-- **Dividing by a positive number** scales. -/
theorem scales_div : Scales (· / y) (rational y)⁻¹ := by
  obtain ⟨m', q', hm', hn', hvalue, hfactor⟩ := exists_of_pos hy hpos
  refine .of_rounded (fun u => UnpackedFloat.div .binary64 u (ofFloat y).unpacked)
    (fun x => div_eq_packed x y) (inv_pos.mpr hpos) (by rw [hfactor]; rfl)
    (fun s => by rw [hfactor]; cases s <;> rfl) (fun s => by rw [hfactor]; cases s <;> rfl)
    (fun negative m q hm hn => ?_)
  obtain ⟨m'', e, a, hdiv, he, hlow, hhigh⟩ := exists_divCore q q' hm hm'
  rw [hvalue]
  refine ⟨m'', e, a, ?_, he, hlow, hhigh⟩
  rw [hfactor, UnpackedFloat.div, hdiv, signOf_div_positive]

end Factor

end Binary

end Deposition
