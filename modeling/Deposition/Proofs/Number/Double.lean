import Deposition.Proofs.Number.Nearest
import Mathlib

/-!
# Double precision by its parts

The program computes in double precision, and what a computation gives is defined on a number that
is taken apart: no number, infinity, zero, or a sign with a significand and an exponent. The
decoding of a bit pattern takes it apart in the same way (`Deposition.Binary.unpack_eq`), so that
whatever is proved of decoded values holds of what the program computes.

The way back is the encoding: a number is the one that its value is written as
(`Deposition.Binary.toFloat_ofFloat`), zeros with their signs.
-/

namespace Deposition

namespace Binary

open Float.Model (UnpackedFloat)
open Float.Model.UnpackedFloat

/-- A sign that is known by whether it is a minus. -/
def signOf (negative : Bool) : Sign := if negative then .negative else .positive

/-- A value in the form in which numbers are computed with. -/
def Value.unpacked : Value → UnpackedFloat
  | .nan => .notANumber
  | .infinite negative => .infinity (signOf negative)
  | .finite negative m q =>
    if h : 0 < m then .finite (signOf negative) m q h else .zero (signOf negative)

/-- The fields of a pattern. -/
theorem decode_fields {bits : Nat} (hbits : bits < 2 ^ 64) :
    double.decode bits =
      if bits / 2 ^ 52 % 2 ^ 11 = 2047 then
        if bits % 2 ^ 52 = 0 then .infinite (decide (bits / 2 ^ 63 % 2 = 1)) else .nan
      else if bits / 2 ^ 52 % 2 ^ 11 = 0 then
        .finite (decide (bits / 2 ^ 63 % 2 = 1)) (bits % 2 ^ 52) (-1074)
      else
        .finite (decide (bits / 2 ^ 63 % 2 = 1)) (2 ^ 52 + bits % 2 ^ 52)
          ((bits / 2 ^ 52 % 2 ^ 11 : Nat) - 1075) := by
  have hsign : double.signBit = 2 ^ 63 := by decide
  have hinfinity : double.infinity = 2047 * 2 ^ 52 := by decide
  have hunit : double.unit = -1074 := by decide
  have hfraction : double.fraction = 52 := rfl
  have hnegative : (2 ^ 63 ≤ bits) = (bits / 2 ^ 63 % 2 = 1) := by
    rw [eq_iff_iff]
    omega
  have hexponent : bits % 2 ^ 63 / 2 ^ 52 = bits / 2 ^ 52 % 2 ^ 11 := by omega
  have hrest : bits % 2 ^ 63 % 2 ^ 52 = bits % 2 ^ 52 := by omega
  have hmagnitude : bits % 2 ^ 63 = (bits / 2 ^ 52 % 2 ^ 11) * 2 ^ 52 + bits % 2 ^ 52 := by omega
  simp only [Format.decode, hsign, hinfinity, hunit, hfraction, Nat.pow_eq, hnegative, hexponent,
    hrest]
  have hE : bits / 2 ^ 52 % 2 ^ 11 < 2 ^ 11 := Nat.mod_lt _ (by decide)
  have hM : bits % 2 ^ 52 < 2 ^ 52 := Nat.mod_lt _ (by decide)
  generalize bits / 2 ^ 52 % 2 ^ 11 = E at *
  generalize bits % 2 ^ 52 = M at *
  generalize bits % 2 ^ 63 = magnitude at *
  by_cases hlast : E = 2047
  · rw [if_pos hlast]
    by_cases hzero : M = 0
    · rw [if_neg (by omega), if_pos (by omega), if_pos hzero]
    · rw [if_pos (by omega), if_neg hzero]
  · rw [if_neg (by omega), if_neg (by omega), if_neg hlast]
    split
    · next hfirst =>
      congr 1
      omega
    · congr 1
      omega

/-- **A number is taken apart in the same way** by its decoding and by the computations. -/
theorem unpack_eq (x : Float) : x.toModel.unpack = (ofFloat x).unpacked := by
  obtain ⟨b, hb⟩ : ∃ b, b = x.toModel.toBits.toBitVec := ⟨_, rfl⟩
  have hbits : x.toBits.toNat = b.toNat := by rw [hb]; rfl
  have hunpack : x.toModel.unpack = UnpackedFloat.unpack .binary64 b := by rw [hb]; rfl
  have hmantissa : (@unpackMantissa .binary64 b).toNat = b.toNat % 2 ^ 52 := by
    simp [unpackMantissa]
  have hexponent : (@unpackExponent .binary64 b).toNat = b.toNat / 2 ^ 52 % 2 ^ 11 := by
    simp [unpackExponent, Nat.shiftRight_eq_div_pow]
  have hsign : (@unpackSign .binary64 b).toNat = b.toNat / 2 ^ 63 % 2 := by
    simp [unpackSign, Nat.shiftRight_eq_div_pow]
  have hlast : @unpackExponent .binary64 b = -1#_ ↔ b.toNat / 2 ^ 52 % 2 ^ 11 = 2047 := by
    rw [← hexponent, ← BitVec.toNat_inj]
    rfl
  have hfirst : @unpackExponent .binary64 b = 0#_ ↔ b.toNat / 2 ^ 52 % 2 ^ 11 = 0 := by
    rw [← hexponent, ← BitVec.toNat_inj]
    rfl
  have hzero : @unpackMantissa .binary64 b = 0#_ ↔ b.toNat % 2 ^ 52 = 0 := by
    rw [← hmantissa, ← BitVec.toNat_inj]
    rfl
  have hsign' : Sign.ofBitVec (@unpackSign .binary64 b) =
      signOf (decide (b.toNat / 2 ^ 63 % 2 = 1)) := by
    have hpositive : @unpackSign .binary64 b = 0#1 ↔ ¬b.toNat / 2 ^ 63 % 2 = 1 := by
      rw [← BitVec.toNat_inj, hsign, BitVec.toNat_ofNat]
      omega
    simp only [Sign.ofBitVec, signOf, hpositive, decide_eq_true_eq, ite_not]
  rw [ofFloat, hbits, hunpack, decode_fields b.isLt]
  simp only [UnpackedFloat.unpack, hlast, hfirst, hzero, hsign', hexponent]
  split
  · split
    · rfl
    · rfl
  split
  · next h =>
    rw [Value.unpacked, h]
    by_cases hm : b.toNat % 2 ^ 52 = 0
    · rw [dif_pos hm, dif_neg (by omega)]
    · rw [dif_neg hm, dif_pos (by omega)]
      simp only [hmantissa]
      rfl
  · rw [Value.unpacked, dif_pos (by omega)]
    congr 1
    rw [BitVec.toNat_append, ← Nat.shiftLeft_add_eq_or_of_lt (BitVec.isLt _), hmantissa]
    rfl

theorem isFinite_eq (x : Float) : x.isFinite = (ofFloat x).isFinite := by
  have h : x.isFinite = x.toModel.unpack.isFinite := rfl
  rw [h, unpack_eq]
  cases ofFloat x with
  | nan => rfl
  | infinite => rfl
  | finite negative m q =>
    rw [Value.unpacked]
    split <;> rfl

/-- A value that is a number. -/
theorem exists_of_isFinite {v : Value} (h : v.isFinite = true) :
    ∃ negative m q, v = .finite negative m q := by
  cases v with
  | finite negative m q => exact ⟨negative, m, q, rfl⟩
  | nan => cases h
  | infinite => cases h

/-! ### The way back -/

section Pattern

variable {m : ℕ} {q : ℤ}

theorem double_signBit : double.signBit = 2 ^ 63 := by decide

theorem double_infinity : double.infinity = 2047 * 2 ^ 52 := by decide

/-- What a number in double precision is, in figures. -/
theorem number_iff :
    double.Number m q ↔ m < 2 ^ 53 ∧ -1074 ≤ q ∧ q ≤ 971 ∧ (-1074 < q → 2 ^ 52 ≤ m) := by
  rw [← double_unit, ← double_limit]
  exact ⟨fun ⟨hlt, hunit, hlimit, hnormal⟩ => ⟨hlt, hunit, hlimit, hnormal⟩,
    fun ⟨hlt, hunit, hlimit, hnormal⟩ => ⟨hlt, hunit, hlimit, hnormal⟩⟩

/-- A significand has all its bits, or the exponent is the smallest one. -/
theorem Format.Number.log2_cases (h : double.Number m q) (hm : m ≠ 0) :
    m.log2 = 52 ∧ 2 ^ 52 ≤ m ∨ m.log2 < 52 ∧ m < 2 ^ 52 ∧ q = -1074 := by
  obtain ⟨hlt, hunit, -, hnormal⟩ := number_iff.mp h
  have hlog := (Nat.log2_lt hm).mpr hlt
  by_cases hfull : 2 ^ 52 ≤ m
  · have := (Nat.le_log2 hm).mpr hfull
    exact .inl ⟨by omega, hfull⟩
  · refine .inr ⟨(Nat.log2_lt hm).mpr (not_le.mp hfull), not_le.mp hfull, ?_⟩
    by_contra hq
    exact hfull (hnormal (by omega))

/-- **The fields of a number make up its pattern.** -/
theorem Format.Number.encodeMagnitude_eq (h : double.Number m q) :
    double.encodeMagnitude m q = (q + 1074).toNat * 2 ^ 52 + m := by
  have hfraction : double.fraction = 52 := rfl
  obtain ⟨hlt, hunit, hlimit, -⟩ := number_iff.mp h
  unfold encodeMagnitude
  split
  · next hm =>
    have hq := h.eq_unit hm
    rw [double_unit] at hq
    rw [hq, hm]
    rfl
  · next hm =>
    have hexponent : max (q + m.log2 - (52 : ℕ)) (-1074) = q := by
      obtain ⟨hlog, -⟩ | ⟨hlog, -, hq⟩ := h.log2_cases hm <;> omega
    simp only [double_unit, hfraction, double_infinity, hexponent, le_refl, if_true, sub_self,
      Int.toNat_zero, Nat.pow_eq, pow_zero, mul_one, sub_neg_eq_add]
    omega

/-- **A pattern is made up again** of what it stands for. -/
theorem encode_decode {bits : ℕ} (hbits : bits < 2 ^ 64)
    (h : (double.decode bits).isFinite = true) : double.encode (double.decode bits) = bits := by
  obtain ⟨negative, m, q, hvalue⟩ := exists_of_isFinite h
  have hnumber := Format.Number.of_decode (by decide) hvalue
  rw [hvalue, Format.encode, hnumber.encodeMagnitude_eq, double_signBit]
  have hparts : bits = (if bits / 2 ^ 63 % 2 = 1 then 2 ^ 63 else 0) +
      ((bits / 2 ^ 52 % 2 ^ 11) * 2 ^ 52 + bits % 2 ^ 52) := by split <;> omega
  rw [decode_fields hbits] at hvalue
  rw [hparts]
  generalize bits / 2 ^ 52 % 2 ^ 11 = E at *
  generalize bits % 2 ^ 52 = M at *
  split at hvalue
  · split at hvalue <;> cases hvalue
  split at hvalue
  all_goals
    obtain ⟨hnegative, hm, hq⟩ := Value.finite.inj hvalue
    simp only [← hnegative, decide_eq_true_eq, Nat.add_left_cancel_iff]
    omega

/-- **A number is the one that its value is written as.** -/
theorem toFloat_ofFloat {x : Float} (h : x.isFinite = true) : toFloat (ofFloat x) = x := by
  rw [isFinite_eq] at h
  have hencode : double.encode (ofFloat x) = x.toBits.toNat := encode_decode x.toBits.toNat_lt h
  rw [toFloat, hencode, UInt64.ofNat_toNat, Float.ofBits_toBits]

end Pattern

end Binary

end Deposition
