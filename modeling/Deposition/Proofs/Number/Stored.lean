import Deposition.Proofs.Number.Double

/-!
# Results as they are stored

What a computation gives is a sign with a significand and an exponent, and it is stored as a bit
pattern. Here it is followed there and read back: a number of the format comes back as it is
(`Deposition.Binary.Format.Number.ofFloat_packed`), one that is too large is infinite, and nothing
that was a number comes back as none (`Deposition.Binary.ofFloat_packed_ne_nan`).
-/

namespace Deposition

namespace Binary

open Float.Model (UnpackedFloat)
open Float.Model.UnpackedFloat

variable {m : ℕ} {q : ℤ}

/-- The fields of a pattern, put side by side. -/
theorem toNat_packComponents (negative : Bool) (E : BitVec 11) (M : BitVec 52) :
    (packComponents .binary64 (signOf negative) E M).toNat =
      (if negative then 2 ^ 63 else 0) + (E.toNat * 2 ^ 52 + M.toNat) := by
  have hsign : (signOf negative).toBitVec.toNat = if negative then 1 else 0 := by
    cases negative <;> rfl
  unfold packComponents
  rw [BitVec.toNat_append, ← Nat.shiftLeft_add_eq_or_of_lt (BitVec.isLt _), BitVec.toNat_append,
    ← Nat.shiftLeft_add_eq_or_of_lt (BitVec.isLt _), hsign, Nat.shiftLeft_eq, Nat.shiftLeft_eq]
  split <;> omega

/-- A pattern is taken apart into the fields that were put together. -/
theorem decode_packComponents (negative : Bool) (E : BitVec 11) (M : BitVec 52) :
    double.decode (packComponents .binary64 (signOf negative) E M).toNat =
      if E.toNat = 2047 then if M.toNat = 0 then .infinite negative else .nan
      else if E.toNat = 0 then .finite negative M.toNat (-1074)
      else .finite negative (2 ^ 52 + M.toNat) (E.toNat - 1075) := by
  have hE : E.toNat < 2 ^ 11 := E.isLt
  have hM : M.toNat < 2 ^ 52 := M.isLt
  have hbits := toNat_packComponents negative E M
  rw [decode_fields (BitVec.isLt _), hbits]
  generalize E.toNat = e at *
  generalize M.toNat = n at *
  obtain ⟨bits, hbits⟩ : ∃ bits, bits = (if negative then 2 ^ 63 else 0) + (e * 2 ^ 52 + n) :=
    ⟨_, rfl⟩
  have hexponent : bits / 2 ^ 52 % 2 ^ 11 = e := by split at hbits <;> omega
  have hfraction : bits % 2 ^ 52 = n := by split at hbits <;> omega
  have hsign : decide (bits / 2 ^ 63 % 2 = 1) = negative := by
    cases negative <;> simp at hbits ⊢ <;> omega
  rw [← hbits, hexponent, hfraction, hsign]

/-- The number that a computation gives. -/
def packed (u : UnpackedFloat) : Float := .ofModel (.pack u)

theorem ofFloat_packed (u : UnpackedFloat) :
    ofFloat (packed u) = double.decode (UnpackedFloat.pack .binary64 u).toNat := rfl

theorem packed_unpack (x : Float) : packed x.toModel.unpack = x := Float.ofBits_toBits x

/-- Every sign is known by whether it is a minus. -/
theorem exists_eq_signOf (s : Sign) : ∃ negative, s = signOf negative := by
  cases s
  · exact ⟨true, rfl⟩
  · exact ⟨false, rfl⟩

theorem ofFloat_packed_infinity (negative : Bool) :
    ofFloat (packed (.infinity (signOf negative))) = .infinite negative :=
  decode_packComponents negative (-1#11) 0#52

theorem ofFloat_packed_zero (negative : Bool) :
    ofFloat (packed (.zero (signOf negative))) = .finite negative 0 (-1074) :=
  decode_packComponents negative 0#11 0#52

/-- The pattern of a number, in figures. -/
theorem pack_finite (s : Sign) (hm : 0 < m) : UnpackedFloat.pack .binary64 (.finite s m q hm) =
    if 2 ^ 11 ≤ (q + 1075).toNat + 1 then packedInfinity .binary64 s
    else if m.log2 + 1 = 53 then
      packComponents .binary64 s (BitVec.ofNat 11 (q + 1075).toNat) (BitVec.ofNat 52 m)
    else packComponents .binary64 s 0#11 (BitVec.ofNat 52 m) := by
  have hbias : q + 1075 = q + 1023 + 52 := (add_assoc q 1023 52).symm
  rw [hbias]
  rfl

/-- Past the last exponent there is only infinity. -/
theorem ofFloat_packed_of_lt (negative : Bool) (hm : 0 < m) (hq : 971 < q) :
    ofFloat (packed (.finite (signOf negative) m q hm)) = .infinite negative := by
  rw [ofFloat_packed, pack_finite, if_pos (by omega)]
  exact ofFloat_packed_infinity negative

/-- **A number of the format stays as it is.** -/
theorem Format.Number.ofFloat_packed (h : double.Number m q) (negative : Bool) (hm : 0 < m) :
    ofFloat (packed (.finite (signOf negative) m q hm)) = .finite negative m q := by
  obtain ⟨hlt, hunit, hlimit, -⟩ := number_iff.mp h
  rw [Binary.ofFloat_packed, pack_finite, if_neg (by omega)]
  obtain ⟨hlog, hm'⟩ | ⟨hlog, hm', hq⟩ := h.log2_cases hm.ne'
  · rw [if_pos (by omega), decode_packComponents, BitVec.toNat_ofNat, BitVec.toNat_ofNat,
      if_neg (by omega), if_neg (by omega)]
    congr 1 <;> omega
  · rw [if_neg (by omega), decode_packComponents, BitVec.toNat_ofNat, BitVec.toNat_ofNat,
      if_neg (by decide), if_pos (by decide)]
    congr 1
    · omega
    · exact hq.symm

/-- **What is a number before it is stored is one afterwards**, or infinite. -/
theorem ofFloat_packed_ne_nan {u : UnpackedFloat} (h : u ≠ .notANumber) :
    ofFloat (packed u) ≠ .nan := by
  cases u with
  | notANumber => exact absurd rfl h
  | infinity s =>
    obtain ⟨negative, rfl⟩ := exists_eq_signOf s
    rw [ofFloat_packed_infinity]
    exact Value.noConfusion
  | zero s =>
    obtain ⟨negative, rfl⟩ := exists_eq_signOf s
    rw [ofFloat_packed_zero]
    exact Value.noConfusion
  | finite s m q hm =>
    obtain ⟨negative, rfl⟩ := exists_eq_signOf s
    by_cases hq : 971 < q
    · rw [ofFloat_packed_of_lt negative hm hq]
      exact Value.noConfusion
    · -- the exponent that is stored is not the last one
      rw [ofFloat_packed, pack_finite, if_neg (by omega)]
      split_ifs
      all_goals
        rw [decode_packComponents, BitVec.toNat_ofNat, if_neg (by omega)]
        split <;> exact Value.noConfusion

end Binary

end Deposition
