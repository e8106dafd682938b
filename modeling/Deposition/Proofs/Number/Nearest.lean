import Deposition.Number.Shortest
import Mathlib.Algebra.Order.Field.Power
import Mathlib.Tactic.FieldSimp
import Mathlib.Tactic.Linarith
import Mathlib.Tactic.Positivity
import Mathlib.Tactic.Ring

/-!
# The nearest number

A number of a format owns the rationals around it: those that are nearer to it than to either
neighbour, and the two half-way points as well if its significand is even. The computation that
finds the fewest digits works with this interval (`Deposition.Shortest.Interval.around`), and the
computation that reads them does not. This file connects the two
(`Deposition.Binary.Format.Number.nearest_eq`): a quotient in the interval of a number is read as
that number.

The one place where the interval is not symmetric is above a power of two. There the neighbour below
has the next smaller exponent, and what is rounded is rounded on its finer grid; a quotient near the
power of two rounds up to it by a carry.
-/

namespace Deposition

/-! ### Intervals -/

namespace Shortest

/-- **The rationals in an interval**, whose ends count quarters of the last bit: what lies between
the ends, and the ends themselves if they belong to it. -/
structure Interval.Mem (i : Interval) (q : ℤ) (x : ℚ) : Prop where
  /-- It is not below the lower end. -/
  low_le : i.low * 2 ^ (q - 2) ≤ x
  /-- It is not above the upper end. -/
  le_high : x ≤ i.high * 2 ^ (q - 2)
  /-- It is no end of an open interval. -/
  ne_ends : i.closed = false → i.low * 2 ^ (q - 2) ≠ x ∧ x ≠ i.high * 2 ^ (q - 2)

variable {f : Binary.Format} {m : ℕ} {q : ℤ} {x : ℚ}

theorem mul_quarter (a : ℚ) (q : ℤ) : a * 2 ^ (q - 2) = a / 4 * 2 ^ q := by
  rw [zpow_sub₀ two_ne_zero]
  norm_num
  ring

/-- The lower end of the interval of a number. -/
theorem Interval.around_low (hm : 0 < m) :
    ((around f m q).low : ℚ) / 4 =
      m - if m = 2 ^ f.fraction ∧ f.unit < q then 1 / 4 else 1 / 2 := by
  simp only [around, Nat.pow_eq]
  split
  · rw [Nat.cast_sub (by omega)]
    push_cast
    ring
  · rw [Nat.cast_sub (by omega)]
    push_cast
    ring

theorem Interval.around_high : ((around f m q).high : ℚ) / 4 = m + 1 / 2 := by
  simp only [around]
  push_cast
  ring

/-- **What is in the interval of a number is within half of its last bit**, and half of it away only
if the significand is even. -/
theorem Interval.Mem.near (hm : 0 < m) (h : (around f m q).Mem q x) :
    |x / 2 ^ q - m| ≤ 1 / 2 ∧ (|x / 2 ^ q - m| = 1 / 2 → m % 2 = 0) := by
  obtain ⟨hlow, hhigh, hends⟩ := h
  have hpos : (0 : ℚ) < 2 ^ q := by positivity
  obtain ⟨y, rfl⟩ : ∃ y, x = y * 2 ^ q := ⟨x / 2 ^ q, by field_simp⟩
  rw [mul_div_cancel_right₀ _ hpos.ne']
  rw [mul_quarter, mul_le_mul_iff_left₀ hpos] at hlow hhigh
  simp only [mul_quarter, ne_eq, mul_left_inj' hpos.ne', around_low hm, around_high] at *
  have hlow' : (m : ℚ) - 1 / 2 ≤ y := by split at hlow <;> linarith
  refine ⟨abs_le.mpr ⟨by linarith, by linarith⟩, fun htie => ?_⟩
  by_contra hodd
  obtain ⟨hne, hne'⟩ := hends (by simpa [around] using hodd)
  obtain heq | heq := (abs_eq (by norm_num)).mp htie
  · exact hne' (by linarith)
  · refine hne ?_
    split at hlow
    · linarith
    · next hwide =>
      rw [if_neg hwide]
      linarith

/-- What is in the interval of a positive number is positive. -/
theorem Interval.Mem.pos (hm : 0 < m) (h : (around f m q).Mem q x) : 0 < x := by
  have hpos : (0 : ℚ) < 2 ^ q := by positivity
  have hm' : (1 : ℚ) ≤ m := by exact_mod_cast hm
  obtain ⟨hlow, -⟩ := abs_le.mp (h.near hm).1
  exact (div_pos_iff_of_pos_right hpos).mp (by linarith)

/-- Above a power of two the neighbour below is only half as far away. -/
theorem Interval.Mem.above_power (hm : m = 2 ^ f.fraction) (hq : f.unit < q)
    (h : (around f m q).Mem q x) : m - 1 / 4 ≤ x / 2 ^ q := by
  have hpos : (0 : ℚ) < 2 ^ q := by positivity
  have hlow := h.low_le
  rw [mul_quarter, around_low (by rw [hm]; positivity), if_pos ⟨hm, hq⟩] at hlow
  rwa [le_div_iff₀ hpos]

end Shortest

namespace Binary

/-! ### Rounding a quotient -/

/-- A power is a quotient of whole numbers. -/
theorem zpow_eq_div {b : ℕ} (hb : 0 < b) (e : ℤ) :
    (b : ℚ) ^ e = (b ^ e.toNat : ℕ) / (b ^ (-e).toNat : ℕ) := by
  have hb' : (b : ℚ) ≠ 0 := Nat.cast_ne_zero.mpr hb.ne'
  rw [Nat.cast_pow, Nat.cast_pow, ← zpow_natCast, ← zpow_natCast, ← zpow_sub₀ hb']
  congr 1
  omega

/-- A quotient is its floor and a part of one. -/
theorem div_eq_floor_add (num : ℕ) {den : ℕ} (hden : 0 < den) :
    (num : ℚ) / den = (num / den : ℕ) + ((num % den : ℕ) : ℚ) / den := by
  have hden' : (den : ℚ) ≠ 0 := Nat.cast_ne_zero.mpr hden.ne'
  have hcast : (num : ℚ) = den * (num / den : ℕ) + (num % den : ℕ) := by
    exact_mod_cast (Nat.div_add_mod num den).symm
  rw [div_eq_iff hden', add_mul, div_mul_cancel₀ _ hden', mul_comm]
  exact hcast

/-- **Rounding gives the integer that is nearest**, or the even one of two that are. -/
theorem roundHalfEven_eq {num den n : ℕ} (hden : 0 < den)
    (hnear : |(num : ℚ) / den - n| ≤ 1 / 2)
    (heven : |(num : ℚ) / den - n| = 1 / 2 → n % 2 = 0) : roundHalfEven num den = n := by
  have hden' : (0 : ℚ) < den := Nat.cast_pos.mpr hden
  obtain ⟨t, ht⟩ : ∃ t : ℚ, t = ((num % den : ℕ) : ℚ) / den := ⟨_, rfl⟩
  have hlt : 2 * (num % den) < den ↔ t < 1 / 2 := by
    rw [ht, div_lt_div_iff₀ hden' two_pos, one_mul, mul_comm]
    exact_mod_cast Iff.rfl
  have hgt : den < 2 * (num % den) ↔ 1 / 2 < t := by
    rw [ht, div_lt_div_iff₀ two_pos hden', one_mul, mul_comm _ (2 : ℚ)]
    exact_mod_cast Iff.rfl
  have hpos : 0 ≤ t := by
    rw [ht]
    positivity
  have hone : t < 1 := by
    rw [ht, div_lt_one hden']
    exact_mod_cast Nat.mod_lt num hden
  rw [div_eq_floor_add num hden, ← ht] at hnear heven
  obtain ⟨hlow, hhigh⟩ := abs_le.mp hnear
  simp only [roundHalfEven, hlt, hgt]
  generalize num / den = k at *
  -- the nearest integer is the floor or the next one
  have hk : k ≤ n := by
    have : (k : ℚ) < n + 1 := by linarith
    exact Nat.lt_succ_iff.mp (by exact_mod_cast this)
  have hk' : n ≤ k + 1 := by
    have : (n : ℚ) < k + 2 := by linarith
    exact Nat.lt_succ_iff.mp (by exact_mod_cast this)
  obtain rfl | rfl : n = k ∨ n = k + 1 := by omega
  · split
    · rfl
    split
    · linarith
    have htie : t = 1 / 2 := by linarith
    rw [if_pos (heven (by rw [htie]; norm_num))]
  · push_cast at *
    split
    · linarith
    split
    · rfl
    have htie : t = 1 / 2 := by linarith
    have hodd := heven (by rw [htie]; norm_num)
    rw [if_neg (by omega)]

/-- What is rounded is a quotient in units of a power of two. -/
theorem div_scaled (num den : ℕ) (e : ℤ) :
    ((num * 2 ^ (-e).toNat : ℕ) : ℚ) / (den * 2 ^ e.toNat : ℕ) = (num : ℚ) / den / 2 ^ e := by
  rw [show (2 : ℚ) = (2 : ℕ) by rfl, zpow_eq_div two_pos]
  push_cast
  field_simp

/-- Rounding a quotient on the grid of a power of two. -/
theorem roundHalfEven_scaled_eq {num den n : ℕ} {e : ℤ} (hden : 0 < den)
    (hnear : |(num : ℚ) / den / 2 ^ e - n| ≤ 1 / 2)
    (heven : |(num : ℚ) / den / 2 ^ e - n| = 1 / 2 → n % 2 = 0) :
    roundHalfEven (num * 2 ^ (-e).toNat) (den * 2 ^ e.toNat) = n :=
  roundHalfEven_eq (by positivity) (by rwa [div_scaled]) (by rwa [div_scaled])

/-- A positive whole number lies between two powers of two. -/
theorem two_zpow_log2_le {n : ℕ} (hn : 0 < n) :
    (2 : ℚ) ^ (n.log2 : ℤ) ≤ n ∧ (n : ℚ) < 2 ^ ((n.log2 : ℤ) + 1) := by
  constructor
  · rw [zpow_natCast]
    exact_mod_cast Nat.log2_self_le hn.ne'
  · exact_mod_cast Nat.lt_log2_self (n := n)

/-- **The first bit of a quotient.** -/
theorem leadingBit_spec {num den : ℕ} (hnum : 0 < num) (hden : 0 < den) :
    (2 : ℚ) ^ leadingBit num den ≤ (num : ℚ) / den ∧
      (num : ℚ) / den < 2 ^ (leadingBit num den + 1) := by
  have hden' : (0 : ℚ) < den := Nat.cast_pos.mpr hden
  obtain ⟨hnumle, hnumlt⟩ := two_zpow_log2_le hnum
  obtain ⟨hdenle, hdenlt⟩ := two_zpow_log2_le hden
  obtain ⟨guess, hguess⟩ : ∃ guess : ℤ, guess = (num.log2 : ℤ) - den.log2 := ⟨_, rfl⟩
  -- the difference of the logarithms is right or one too much
  have hlow : (2 : ℚ) ^ (guess - 1) ≤ num / den := by
    rw [le_div_iff₀ hden']
    calc (2 : ℚ) ^ (guess - 1) * den ≤ 2 ^ (guess - 1) * 2 ^ ((den.log2 : ℤ) + 1) := by gcongr
      _ = 2 ^ (num.log2 : ℤ) := by
        rw [← zpow_add₀ two_ne_zero]
        congr 1
        omega
      _ ≤ num := hnumle
  have hhigh : (num : ℚ) / den < 2 ^ (guess + 1) := by
    rw [div_lt_iff₀ hden']
    calc (num : ℚ) < 2 ^ ((num.log2 : ℤ) + 1) := hnumlt
      _ = 2 ^ (guess + 1) * 2 ^ (den.log2 : ℤ) := by
        rw [← zpow_add₀ two_ne_zero]
        congr 1
        omega
      _ ≤ 2 ^ (guess + 1) * den := by gcongr
  have hbelow : num * 2 ^ (-guess).toNat < den * 2 ^ guess.toNat ↔
      (num : ℚ) / den < 2 ^ guess := by
    rw [show (2 : ℚ) = (2 : ℕ) by rfl, zpow_eq_div two_pos,
      div_lt_div_iff₀ hden' (by positivity), mul_comm den]
    exact_mod_cast Iff.rfl
  simp only [leadingBit, Nat.pow_eq, ← hguess, hbelow]
  split
  · exact ⟨hlow, by rwa [sub_add_cancel]⟩
  · next h => exact ⟨not_lt.mp h, hhigh⟩

theorem double_unit : double.unit = -1074 := by decide

theorem double_limit : double.limit = 971 := by decide

namespace Format

/-- **A number of a format**, its sign aside: the significand has all its bits, unless the exponent
is the smallest one. -/
structure Number (f : Format) (m : ℕ) (q : ℤ) : Prop where
  /-- The significand fits. -/
  lt : m < 2 ^ (f.fraction + 1)
  /-- The exponent is not too small. -/
  unit_le : f.unit ≤ q
  /-- The exponent is not too large. -/
  le_limit : q ≤ f.limit
  /-- The significand has all its bits, if there is a smaller exponent. -/
  normal : f.unit < q → 2 ^ f.fraction ≤ m

variable {f : Format} {m : ℕ} {q : ℤ}

/-- Zero has the smallest exponent. -/
theorem Number.eq_unit (h : f.Number m q) (hm : m = 0) : q = f.unit := by
  refine le_antisymm (not_lt.mp fun hlt => ?_) h.unit_le
  have := (Nat.two_pow_pos f.fraction).trans_le (h.normal hlt)
  omega

/-- **What a pattern stands for** is a number of the format, unless it is none at all. -/
theorem Number.of_decode (hf : 2 ≤ f.exponent) {bits : ℕ} {negative : Bool}
    (h : f.decode bits = .finite negative m q) : f.Number m q := by
  have hexponents : 2 ^ 2 ≤ 2 ^ f.exponent := Nat.pow_le_pow_right two_pos hf
  have hlimit : f.limit = f.unit + (2 ^ f.exponent : ℕ) - 3 := by simp [limit, Nat.pow_eq]
  simp only [decode, infinity, Nat.pow_eq] at h
  generalize bits % f.signBit = magnitude at h
  have hfield := Nat.div_add_mod magnitude (2 ^ f.fraction)
  have hrest := Nat.mod_lt magnitude (Nat.two_pow_pos f.fraction)
  split at h
  · cases h
  split at h
  · cases h
  · next hnan hinf =>
    have hlt : magnitude < (2 ^ f.exponent - 1) * 2 ^ f.fraction := by omega
    split at h
    · next hzero =>
      obtain ⟨-, rfl, rfl⟩ := Value.finite.inj h
      have := (Nat.div_eq_zero_iff_lt (Nat.two_pow_pos f.fraction)).mp hzero
      exact ⟨by omega, le_rfl, by omega, fun hlt => absurd hlt (lt_irrefl _)⟩
    · next hzero =>
      obtain ⟨-, rfl, rfl⟩ := Value.finite.inj h
      have hfields : magnitude / 2 ^ f.fraction < 2 ^ f.exponent - 1 :=
        Nat.div_lt_of_lt_mul (by rwa [mul_comm])
      generalize magnitude / 2 ^ f.fraction = field at hzero hfields ⊢
      exact ⟨by rw [pow_succ]; omega, by omega, by omega, fun _ => Nat.le_add_right _ _⟩

section Interval

open Shortest

variable {x : ℚ} {L : ℤ}

/-- What lies in the interval of a number has its first bit no later than the number, so that it is
not rounded on a coarser grid. -/
theorem Number.exponent_le (h : f.Number m q) (hm : 0 < m)
    (hx : (Interval.around f m q).Mem q x) (hleading : (2 : ℚ) ^ L ≤ x) :
    max (L - f.fraction) f.unit ≤ q := by
  refine max_le (not_lt.mp fun hlt => ?_) h.unit_le
  have hpos : (0 : ℚ) < 2 ^ q := by positivity
  have hmlt : (m : ℚ) + 1 ≤ 2 ^ (f.fraction + 1) := by exact_mod_cast h.lt
  obtain ⟨-, hhigh⟩ := abs_le.mp (hx.near hm).1
  have hbig : (2 : ℚ) ^ (f.fraction + 1) ≤ x / 2 ^ q := by
    rw [le_div_iff₀ hpos, ← zpow_natCast, ← zpow_add₀ two_ne_zero]
    exact (zpow_le_zpow_right₀ one_le_two (by push_cast; omega)).trans hleading
  linarith

/-- **A finer grid is met only below a power of two.** Where what lies in the interval of a number
has its first bit later than the number, the number is a power of two, the grid is the next finer
one, and on it what is rounded is within half a unit of the power. -/
theorem Number.carries_of_lt (h : f.Number m q) (hm : 0 < m)
    (hx : (Interval.around f m q).Mem q x) (hleading : x < 2 ^ (L + 1))
    (hlt : max (L - f.fraction) f.unit < q) :
    m = 2 ^ f.fraction ∧ max (L - f.fraction) f.unit = q - 1 ∧
      |x / 2 ^ (q - 1) - (2 ^ (f.fraction + 1) : ℕ)| ≤ 1 / 2 := by
  have hpos : (0 : ℚ) < 2 ^ q := by positivity
  have hunit : f.unit < q := (le_max_right _ _).trans_lt hlt
  have hlt' : L - f.fraction < q := (le_max_left _ _).trans_lt hlt
  obtain ⟨hlow, -⟩ := abs_le.mp (hx.near hm).1
  have hsmall : x / 2 ^ q < 2 ^ f.fraction := by
    rw [div_lt_iff₀ hpos, ← zpow_natCast, ← zpow_add₀ two_ne_zero]
    exact hleading.trans_le (zpow_le_zpow_right₀ one_le_two (by omega))
  have hpower : m = 2 ^ f.fraction := by
    have : (m : ℚ) < (2 ^ f.fraction + 1 : ℕ) := by
      push_cast
      linarith
    exact le_antisymm (Nat.lt_succ_iff.mp (by exact_mod_cast this)) (h.normal hunit)
  have habove := hx.above_power hpower hunit
  have hmcast : (m : ℚ) = 2 ^ f.fraction := by exact_mod_cast hpower
  refine ⟨hpower, ?_, ?_⟩
  · have hm' : (1 : ℚ) ≤ m := by exact_mod_cast hm
    have hnext : (2 : ℚ) ^ (q + f.fraction - 1) < 2 ^ (L + 1) :=
      calc (2 : ℚ) ^ (q + f.fraction - 1) = m / 2 * 2 ^ q := by
            rw [zpow_sub_one₀ two_ne_zero, zpow_add₀ two_ne_zero, zpow_natCast, hmcast]
            ring
        _ ≤ x := by
          rw [← le_div_iff₀ hpos]
          linarith
        _ < 2 ^ (L + 1) := hleading
    have := (zpow_lt_zpow_iff_right₀ one_lt_two).mp hnext
    omega
  · have hdouble : x / 2 ^ (q - 1) = 2 * (x / 2 ^ q) := by
      rw [zpow_sub_one₀ two_ne_zero]
      field_simp
    rw [hdouble, abs_le]
    push_cast
    constructor <;> rw [pow_succ] <;> linarith

/-- **What lies in the interval of a number is read as that number.** -/
theorem Number.nearest_eq (h : f.Number m q) (hm : 0 < m) (negative : Bool) {num den : ℕ}
    (hden : 0 < den) (hx : (Interval.around f m q).Mem q (num / den)) :
    f.nearest negative num den = .finite negative m q := by
  have hnum : num ≠ 0 := by
    rintro rfl
    simpa using hx.pos hm
  obtain ⟨hleading, hleading'⟩ := leadingBit_spec (Nat.pos_of_ne_zero hnum) hden
  rw [nearest, if_neg hnum]
  simp only [Nat.pow_eq]
  obtain heq | hlt := (h.exponent_le hm hx hleading).eq_or_lt
  · obtain ⟨hnear, heven⟩ := hx.near hm
    rw [heq, roundHalfEven_scaled_eq hden hnear heven, if_neg h.lt.ne]
    exact if_neg (not_lt.mpr h.le_limit)
  · -- it is rounded up to the power of two, and this carries into the exponent
    obtain ⟨hpower, heq, hcarry⟩ := h.carries_of_lt hm hx hleading' hlt
    have hrounded := roundHalfEven_scaled_eq hden hcarry fun _ => by simp [pow_succ]
    rw [heq, hrounded, if_pos rfl, sub_add_cancel, ← hpower]
    exact if_neg (not_lt.mpr h.le_limit)

end Interval

end Format

end Binary

end Deposition
