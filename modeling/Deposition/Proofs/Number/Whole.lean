import Deposition.HeightMap
import Mathlib.Data.Rat.Floor

/-!
# Cutting a number down to a whole one

A value is kept as a sign, a significand and an exponent, and the whole number below it is computed
from these: by a shift to the left, or by a division that rounds down. Here the value is read as the
rational number that it stands for (`Deposition.Binary.Value.number`), and the whole number is the
floor of that rational (`Deposition.Binary.Value.floor_eq`).

A coordinate is then fitted into 64 bits, whatever it is: past either end it stays at the end, and
so do the infinities, and what is no number becomes zero. `Deposition.Binary.Value.cut` says this
of the value, and `Deposition.HeightMap.floorInt64_eq` that it is what is computed.
-/

namespace Deposition

namespace Binary.Value

/-- The number that a finite value stands for. -/
def number (negative : Bool) (m : ℕ) (q : ℤ) : ℚ := (if negative then -1 else 1) * m * 2 ^ q

/-- The significand with its sign. -/
def signed (negative : Bool) (m : ℕ) : ℤ := if negative then -m else m

theorem number_eq (negative : Bool) (m : ℕ) (q : ℤ) :
    number negative m q = signed negative m * 2 ^ q := by
  unfold number signed
  split <;> simp

/-- **The largest integer not above a number** is its floor. -/
theorem floor_eq (negative : Bool) (m : ℕ) (q : ℤ) :
    floor negative m q = ⌊number negative m q⌋ := by
  have hfloor : floor negative m q =
      if 0 ≤ q then signed negative m * 2 ^ q.toNat else signed negative m / 2 ^ (-q).toNat := by
    simp [floor, signed]
  rw [hfloor, number_eq]
  split
  · next hq =>
    obtain ⟨k, rfl⟩ := Int.eq_ofNat_of_zero_le hq
    have hproduct : (signed negative m : ℚ) * 2 ^ (k : ℤ) = (signed negative m * 2 ^ k : ℤ) := by
      rw [zpow_natCast]
      push_cast
      rfl
    rw [hproduct, Int.floor_intCast, Int.toNat_natCast]
  · next hq =>
    -- the exponent is negative, so the number is a quotient
    obtain ⟨k, rfl⟩ : ∃ k : ℕ, q = -k := ⟨(-q).toNat, by omega⟩
    have hquotient : (signed negative m : ℚ) * 2 ^ (-(k : ℤ)) =
        (signed negative m : ℚ) / (2 ^ k : ℕ) := by
      rw [zpow_neg, zpow_natCast, div_eq_mul_inv]
      push_cast
      rfl
    rw [hquotient, Rat.floor_intCast_div_natCast]
    simp

/-- **A number without its fraction** is the floor of its magnitude. -/
theorem truncate_eq (m : ℕ) (q : ℤ) : (truncate m q : ℤ) = ⌊(m : ℚ) * 2 ^ q⌋ := by
  have hfloor : floor false m q = truncate m q := by
    simp only [floor, truncate, Bool.false_eq_true, if_false]
    split <;> simp
  rw [← hfloor, floor_eq]
  simp [number]

/-- **A whole number** is one that has nothing to lose. -/
theorem isWhole_iff (negative : Bool) (m : ℕ) (q : ℤ) :
    (finite negative m q).isWhole = true ↔ (m : ℚ) * 2 ^ q = truncate m q := by
  unfold isWhole truncate
  obtain hq | hq := le_or_gt 0 q
  · obtain ⟨k, rfl⟩ := Int.eq_ofNat_of_zero_le hq
    simp
  · obtain ⟨k, rfl⟩ : ∃ k : ℕ, q = -k := ⟨(-q).toNat, by omega⟩
    have hquotient : (m : ℚ) * 2 ^ (-(k : ℤ)) = (m / 2 ^ k : ℕ) ↔ m = m / 2 ^ k * 2 ^ k := by
      rw [zpow_neg, zpow_natCast, ← div_eq_mul_inv, div_eq_iff (by positivity)]
      exact_mod_cast Iff.rfl
    simp only [not_le.mpr hq, decide_false, Bool.false_or, beq_iff_eq, neg_neg, Int.toNat_natCast,
      Nat.pow_eq, if_false, hquotient]
    rw [← Nat.dvd_iff_mod_eq_zero]
    exact ⟨fun hdvd => (Nat.div_mul_cancel hdvd).symm, fun heq => Dvd.intro_left _ heq.symm⟩

/-- **The whole number that a coordinate is cut down to**: the floor, within 64 bits. What is no
number is cut down to zero. -/
def cut : Value → ℤ
  | .nan => 0
  | .infinite negative => if negative then -2 ^ 63 else 2 ^ 63 - 1
  | .finite negative m q => max (-2 ^ 63) (min ⌊number negative m q⌋ (2 ^ 63 - 1))

end Binary.Value

/-- **The integer below a number, within 64 bits**, is what the number is cut down to. -/
theorem HeightMap.floorInt64_eq (x : Float) : floorInt64 x = (Binary.ofFloat x).cut := by
  unfold floorInt64
  split
  · next h => rw [h, Binary.Value.cut]
  · next negative h =>
    rw [h, Binary.Value.cut]
    rfl
  · next negative m q h =>
    rw [h, Binary.Value.cut, Binary.Value.floor_eq]
    rfl

end Deposition
