import Deposition.Proofs.Number.Nearest

/-!
# The fewest digits read back

The digits of a number are looked for on one decimal grid after another. Whatever grid the search
stops at, the point that it takes is in the interval of the number
(`Deposition.Shortest.Interval.onGrid?_mem`), and a grid that is finer than half of the last bit has
such a point (`Deposition.Shortest.Interval.exists_onGrid?`). So it is enough that the grids of up
to eighteen digits include one that is fine enough. The exponent of the first digit is guessed from
the logarithm, and this file allows the guess to be off: it need not be the first digit's exponent,
only not much above it (`Deposition.Shortest.ten_zpow_leadingExponent_le`).

Together: the shortest decimal of a number lies in its interval
(`Deposition.Binary.Format.Number.shortest_mem`).
-/

namespace Deposition

/-- The number that a decimal is. -/
def Decimal.value (d : Decimal) : ℚ := d.digits * 10 ^ d.exponent

namespace Shortest

/-! ### Comparing with a grid -/

section Factors

variable {q p : ℤ} {a d : ℕ}

/-- The factors are the two powers on one scale. -/
theorem exists_scale (q p : ℤ) :
    ∃ c : ℚ, 0 < c ∧ ((factors q p).1 : ℚ) = 2 ^ q * c ∧ ((factors q p).2 : ℚ) = 10 ^ p * c := by
  refine ⟨2 ^ (-q).toNat * 10 ^ (-p).toNat, by positivity, ?_, ?_⟩
  · have htwo := Binary.zpow_eq_div two_pos q
    rw [Nat.cast_ofNat] at htwo
    simp only [factors, Nat.pow_eq, htwo]
    push_cast
    field_simp
  · have hten := Binary.zpow_eq_div (show 0 < 10 by decide) p
    rw [Nat.cast_ofNat] at hten
    simp only [factors, Nat.pow_eq, hten]
    push_cast
    field_simp

theorem factors_pos (q p : ℤ) : 0 < (factors q p).1 ∧ 0 < (factors q p).2 := by
  simp only [factors, Nat.pow_eq]
  constructor <;> positivity

/-- **Multiplying out compares** a multiple of a power of two with one of a power of ten. -/
theorem mul_factors_le_iff :
    a * (factors q p).1 ≤ d * (factors q p).2 ↔ (a : ℚ) * 2 ^ q ≤ d * 10 ^ p := by
  obtain ⟨c, hc, hbinary, hdecimal⟩ := exists_scale q p
  rw [← Nat.cast_le (α := ℚ), Nat.cast_mul, Nat.cast_mul, hbinary, hdecimal, ← mul_assoc,
    ← mul_assoc, mul_le_mul_iff_left₀ hc]

theorem mul_factors_ge_iff :
    d * (factors q p).2 ≤ a * (factors q p).1 ↔ (d : ℚ) * 10 ^ p ≤ a * 2 ^ q := by
  obtain ⟨c, hc, hbinary, hdecimal⟩ := exists_scale q p
  rw [← Nat.cast_le (α := ℚ), Nat.cast_mul, Nat.cast_mul, hbinary, hdecimal, ← mul_assoc,
    ← mul_assoc, mul_le_mul_iff_left₀ hc]

theorem powerBelow_iff {m : ℕ} {e : ℤ} : powerBelow m q e = true ↔ (10 : ℚ) ^ e ≤ m * 2 ^ q := by
  have h := mul_factors_ge_iff (q := q) (p := e) (a := m) (d := 1)
  simpa [powerBelow] using h

end Factors

/-! ### A point of a grid -/

namespace Interval

variable {i : Interval} {tie : Tie} {q p : ℤ} {d : ℕ}

/-- Whether a point of the grid of `10^p` lies in an interval, multiplied out. -/
def inside (i : Interval) (q p : ℤ) (d : ℕ) : Bool :=
  let (binary, decimal) := factors (q - 2) p
  if i.closed then i.low * binary ≤ d * decimal && d * decimal ≤ i.high * binary
  else i.low * binary < d * decimal && d * decimal < i.high * binary

/-- The last point of the grid of `10^p` that is not above the number. -/
def below (i : Interval) (q p : ℤ) : ℕ :=
  i.value * (factors (q - 2) p).1 / (factors (q - 2) p).2

theorem inside_iff : i.inside q p d = true ↔ i.Mem q (Decimal.value ⟨d, p⟩) := by
  have hlt (a : ℕ) : a * (factors (q - 2) p).1 < d * (factors (q - 2) p).2 ↔
      (a : ℚ) * 2 ^ (q - 2) < d * 10 ^ p := by
    rw [← not_le, mul_factors_ge_iff, not_le]
  have hgt (a : ℕ) : d * (factors (q - 2) p).2 < a * (factors (q - 2) p).1 ↔
      (d : ℚ) * 10 ^ p < a * 2 ^ (q - 2) := by
    rw [← not_le, mul_factors_le_iff, not_le]
  unfold inside
  cases hclosed : i.closed
  · simp only [Bool.false_eq_true, if_false, Bool.and_eq_true, decide_eq_true_eq, hlt, hgt]
    exact ⟨fun ⟨hlow, hhigh⟩ => ⟨hlow.le, hhigh.le, fun _ => ⟨hlow.ne, hhigh.ne⟩⟩,
      fun ⟨hlow, hhigh, hends⟩ =>
        ⟨lt_of_le_of_ne hlow (hends hclosed).1, lt_of_le_of_ne hhigh (hends hclosed).2⟩⟩
  · simp only [if_true, Bool.and_eq_true, decide_eq_true_eq, mul_factors_le_iff,
      mul_factors_ge_iff]
    exact ⟨fun ⟨hlow, hhigh⟩ => ⟨hlow, hhigh, fun h => by simp [hclosed] at h⟩,
      fun ⟨hlow, hhigh, _⟩ => ⟨hlow, hhigh⟩⟩

/-- One of the two points next to the number is taken if one of them is inside. -/
theorem onGrid?_cases (i : Interval) (tie : Tie) (q p : ℤ) :
    i.onGrid? tie q p = none ∧ i.inside q p (i.below q p) = false ∧
        i.inside q p (i.below q p + 1) = false ∨
      ∃ d, i.onGrid? tie q p = some d ∧ i.inside q p d = true := by
  unfold onGrid? inside below
  dsimp only
  split
  · next hbelow habove => exact .inl ⟨rfl, hbelow, habove⟩
  · next hbelow _ => exact .inr ⟨_, rfl, hbelow⟩
  · next _ habove => exact .inr ⟨_, rfl, habove⟩
  · next hbelow habove =>
    -- both are inside, and whichever is taken is
    refine .inr ?_
    split
    · exact ⟨_, rfl, hbelow⟩
    split
    · exact ⟨_, rfl, habove⟩
    split
    · exact ⟨_, rfl, habove⟩
    · refine ⟨_, rfl, ?_⟩
      by_cases heven : i.value * (factors (q - 2) p).1 / (factors (q - 2) p).2 % 2 = 0
      · rw [if_pos heven]
        exact hbelow
      · rw [if_neg heven]
        exact habove

/-- **The point that is taken lies in the interval.** -/
theorem onGrid?_mem (h : i.onGrid? tie q p = some d) : i.Mem q (Decimal.value ⟨d, p⟩) := by
  rw [← inside_iff]
  obtain ⟨hnone, -, -⟩ | ⟨d', hsome, hd'⟩ := onGrid?_cases i tie q p
  · rw [hnone] at h
    cases h
  · obtain rfl := Option.some.inj (hsome.symm.trans h)
    exact hd'

/-- **A grid that is fine enough has a point in the interval.** -/
theorem exists_onGrid? (tie : Tie) (hlow : i.low < i.value) (hhigh : i.value < i.high)
    (hfine : (10 : ℚ) ^ p ≤ ((i.high : ℚ) - i.value) * 2 ^ (q - 2)) :
    ∃ d, i.onGrid? tie q p = some d := by
  obtain ⟨-, hdecimal⟩ := factors_pos (q - 2) p
  have hunit : (0 : ℚ) < 2 ^ (q - 2) := by positivity
  have hlow' : (i.low : ℚ) * 2 ^ (q - 2) < i.value * 2 ^ (q - 2) := by gcongr
  have hhigh' : (i.value : ℚ) * 2 ^ (q - 2) < i.high * 2 ^ (q - 2) := by gcongr
  have hbelow : (i.below q p : ℚ) * 10 ^ p ≤ i.value * 2 ^ (q - 2) := by
    rw [← mul_factors_ge_iff]
    exact Nat.div_mul_le_self _ _
  have habove : (i.value : ℚ) * 2 ^ (q - 2) < (i.below q p + 1 : ℕ) * 10 ^ p := by
    rw [← not_le, ← mul_factors_ge_iff, not_le, mul_comm (_ + 1)]
    exact Nat.lt_mul_div_succ _ hdecimal
  obtain ⟨-, hnot, hnot'⟩ | ⟨d, hd, -⟩ := onGrid?_cases i tie q p
  · exfalso
    rw [← Bool.not_eq_true, inside_iff] at hnot hnot'
    obtain heq | hlt := hbelow.eq_or_lt
    · -- the number itself is on the grid
      refine hnot ⟨?_, ?_, fun _ => ⟨?_, ?_⟩⟩ <;> rw [Decimal.value, heq]
      exacts [hlow'.le, hhigh'.le, hlow'.ne, hhigh'.ne]
    · have hnext : ((i.below q p + 1 : ℕ) : ℚ) * 10 ^ p < i.high * 2 ^ (q - 2) := by
        push_cast
        linarith
      exact hnot' ⟨(hlow'.trans habove).le, hnext.le, fun _ => ⟨(hlow'.trans habove).ne, hnext.ne⟩⟩
  · exact ⟨d, hd⟩

/-- **The search ends at a point of the interval**, if the last grid that it tries has one. -/
theorem search_mem {fuel : ℕ} (h : ∃ d, i.onGrid? tie q (p - fuel) = some d) :
    i.Mem q (i.search tie q fuel p).value := by
  induction fuel generalizing p with
  | zero =>
    obtain ⟨d, hd⟩ := h
    rw [Nat.cast_zero, sub_zero] at hd
    rw [search, hd]
    exact onGrid?_mem hd
  | succ fuel ih =>
    rw [search]
    split
    · next d hd => exact onGrid?_mem hd
    · refine ih ?_
      rwa [sub_sub, add_comm, ← Nat.cast_succ]

end Interval

/-! ### The first digit -/

/-- Comparing powers of powers compares powers. -/
theorem zpow_le_of_pow {a b : ℚ} (ha : 0 < a) (hb : 0 < b) {k : ℕ} (hk : k ≠ 0) {x y : ℤ}
    (h : (a ^ k) ^ x ≤ (b ^ k) ^ y) : a ^ x ≤ b ^ y := by
  rw [← pow_le_pow_iff_left₀ (by positivity) (by positivity) hk]
  simp only [← zpow_natCast, ← zpow_mul] at h ⊢
  rwa [mul_comm x, mul_comm y]

/-- A decimal logarithm that is taken to five places is right but for a few bits. -/
theorem ten_zpow_le {guess L : ℤ} (h : 100000 * guess ≤ 30103 * L) (hlow : -10000 ≤ L)
    (hhigh : L ≤ 10000) : (10 : ℚ) ^ guess ≤ 2 ^ (L + 4) := by
  obtain hpos | hneg := le_total 0 guess
  · refine zpow_le_of_pow (by norm_num) two_pos (k := 59) (by decide) ?_
    calc ((10 : ℚ) ^ 59) ^ guess ≤ (2 ^ 196) ^ guess :=
          zpow_le_zpow_left₀ hpos (by positivity) (by norm_num)
      _ = 2 ^ (196 * guess) := by rw [zpow_mul]; norm_cast
      _ ≤ 2 ^ (59 * (L + 4)) := zpow_le_zpow_right₀ one_le_two (by omega)
      _ = (2 ^ 59) ^ (L + 4) := by rw [zpow_mul]; norm_cast
  · refine zpow_le_of_pow (by norm_num) two_pos (k := 28) (by decide) ?_
    calc ((10 : ℚ) ^ 28) ^ guess ≤ (2 ^ 93) ^ guess := by
          rw [← inv_le_inv₀ (by positivity) (by positivity), ← zpow_neg, ← zpow_neg]
          exact zpow_le_zpow_left₀ (by omega) (by positivity) (by norm_num)
      _ = 2 ^ (93 * guess) := by rw [zpow_mul]; norm_cast
      _ ≤ 2 ^ (28 * (L + 4)) := zpow_le_zpow_right₀ one_le_two (by omega)
      _ = (2 ^ 28) ^ (L + 4) := by rw [zpow_mul]; norm_cast

/-- **The first exponent is not much too large.** -/
theorem ten_zpow_leadingExponent_le {m : ℕ} {q : ℤ} (hm : 0 < m) (hm' : m < 2 ^ 53)
    (hlow : -9000 ≤ q) (hhigh : q ≤ 9000) : (10 : ℚ) ^ leadingExponent m q ≤ 2 ^ (q + 53) := by
  have hlog : m.log2 < 53 := (Nat.log2_lt hm.ne').mpr hm'
  -- an exponent that has been checked is not too large
  have hchecked {e : ℤ} (he : powerBelow m q e = true) : (10 : ℚ) ^ e ≤ 2 ^ (q + 53) := by
    rw [powerBelow_iff] at he
    refine he.trans ?_
    rw [zpow_add₀ two_ne_zero, mul_comm]
    gcongr
    exact_mod_cast hm'.le
  obtain ⟨guess, hguess⟩ : ∃ guess : ℤ, guess = (q + m.log2) * 30103 / 100000 := ⟨_, rfl⟩
  have htimes : 100000 * guess ≤ 30103 * (q + m.log2) := by
    rw [hguess, mul_comm (30103 : ℤ)]
    exact Int.mul_ediv_self_le (by decide)
  simp only [leadingExponent, ← hguess]
  split
  · calc (10 : ℚ) ^ (guess - 1) = 10 ^ guess / 10 := zpow_sub_one₀ (by norm_num) _
      _ ≤ 2 ^ (q + m.log2 + 4) / 10 := by
        gcongr
        exact ten_zpow_le htimes (by omega) (by omega)
      _ ≤ 2 ^ (q + m.log2 + 4) / 2 ^ 3 := by
        gcongr
        norm_num
      _ = 2 ^ (q + m.log2 + 1) := by
        rw [← zpow_natCast, ← zpow_sub₀ two_ne_zero]
        congr 1
        push_cast
        ring
      _ ≤ 2 ^ (q + 53) := zpow_le_zpow_right₀ one_le_two (by omega)
  · next hbelow =>
    split
    · next hnext => exact hchecked hnext
    · exact hchecked (by simpa using hbelow)

/-- Zeros at the end of the digits do not count. -/
theorem value_stripZeros (fuel : ℕ) (d : Decimal) : (stripZeros fuel d).value = d.value := by
  induction fuel generalizing d with
  | zero => rfl
  | succ fuel ih =>
    rw [stripZeros]
    split
    · next hzero =>
      have hdigits : (d.digits : ℚ) = (d.digits / 10 : ℕ) * 10 := by
        exact_mod_cast (Nat.div_mul_cancel (Nat.dvd_of_mod_eq_zero hzero.1)).symm
      rw [ih, Decimal.value, Decimal.value, hdigits, zpow_add_one₀ (by norm_num)]
      ring
    · rfl

end Shortest

/-! ### The shortest decimal -/

open Shortest in
/-- **The shortest decimal of a number lies in its interval.** Seventeen digits more than the first
one are enough, because then the grid is finer than half of the last bit. -/
theorem Binary.Format.Number.shortest_mem {f : Binary.Format} {m : ℕ} {q : ℤ} (h : f.Number m q)
    (hm : 0 < m) (hf : f.fraction ≤ 52) (hlow : -9000 ≤ q) (hhigh : q ≤ 9000) (tie : Tie) :
    (Interval.around f m q).Mem q (f.shortest tie m q).value := by
  have hm' : m < 2 ^ 53 := h.lt.trans_le (Nat.pow_le_pow_right two_pos (by omega))
  rw [shortest, value_stripZeros]
  refine Interval.search_mem (Interval.exists_onGrid? tie ?_ ?_ ?_)
  · simp only [Interval.around]
    split <;> omega
  · simp [Interval.around]
  · calc (10 : ℚ) ^ (leadingExponent m q - (17 : ℕ)) = 10 ^ leadingExponent m q / 10 ^ 17 := by
          rw [zpow_sub₀ (by norm_num), zpow_natCast]
      _ ≤ 2 ^ (q + 53) / 2 ^ 54 := by
        gcongr
        · exact ten_zpow_leadingExponent_le hm hm' hlow hhigh
        · norm_num
      _ = 2 * 2 ^ (q - 2) := by
        rw [zpow_add₀ two_ne_zero, zpow_sub₀ two_ne_zero]
        norm_num
        ring
      _ = _ := by
        simp only [Interval.around]
        push_cast
        ring

end Deposition
