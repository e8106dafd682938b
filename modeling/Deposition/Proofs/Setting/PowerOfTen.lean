import Deposition.Proofs.Setting.Snapping

/-!
# Powers of ten

A number is rounded to decimal places by a multiplication with a power of ten and a division by it,
and the power comes from repeated squaring, rounded at every step. Up to the last power that does
not overflow there are few enough to look at each: all of them are numbers
(`Deposition.Setting.powerOfTen_spec`). What is needed of them follows, that the places are a grid
(`Deposition.Setting.grid_places`), and that the last place, taken as a step, is that same grid but
for a rounding error (`Deposition.Setting.powerOfTen_neg_spec`).
-/

namespace Deposition

namespace Setting

open Binary

/-- A power of ten that does not overflow is a number, at least one, and not above the last one. -/
theorem powerOfTen_spec : ∀ d : ℕ, d < 309 → (powerOfTen d).isFinite = true ∧
    (1.0 : Float) ≤ powerOfTen d ∧ powerOfTen d ≤ powerOfTen 308 := by
  decide +kernel

/-- A decimal place is one over a power of ten. -/
theorem powerOfTen_neg (d : ℕ) : powerOfTen (-d) = 1.0 / powerOfTen d := by
  cases d with
  | zero => decide +kernel
  | succ d =>
    have hneg : -((d + 1 : ℕ) : ℤ) < 0 := by omega
    have hpos : ¬((d + 1 : ℕ) : ℤ) < 0 := by omega
    rw [powerOfTen, powerOfTen, if_pos hneg, if_neg hpos, Int.natAbs_neg]

theorem rational_powerOfTen_two : rational (powerOfTen (2 : ℕ)) = 100 := by
  have hvalue : ofFloat (powerOfTen (2 : ℕ)) = .finite false (100 * 2 ^ 46) (-46) := by
    decide +kernel
  rw [rational_eq hvalue, Value.number]
  norm_num

section Places

variable {d : ℕ} (hd : d ≤ 308)

include hd

theorem isFinite_powerOfTen : (powerOfTen d).isFinite = true :=
  (powerOfTen_spec d (by omega)).1

theorem one_le_powerOfTen : 1 ≤ rational (powerOfTen d) := by
  have hone := (powerOfTen_spec d (by omega)).2.1
  rwa [le_iff (by decide +kernel) (isFinite_powerOfTen hd), rational_one] at hone

theorem powerOfTen_le : rational (powerOfTen d) ≤ 2 ^ (1024 : ℤ) * (5 / 8) := by
  have hle := (powerOfTen_spec d (by omega)).2.2
  have hfinite : (powerOfTen 308).isFinite = true := isFinite_powerOfTen (d := 308) le_rfl
  have hlast : ofFloat (powerOfTen 308) = .finite false 5010420900022435 971 := by decide +kernel
  rw [le_iff (isFinite_powerOfTen hd) hfinite] at hle
  refine hle.trans ?_
  have hsplit : (2 : ℚ) ^ (1024 : ℤ) = 2 ^ (53 : ℤ) * 2 ^ (971 : ℤ) := by
    rw [← zpow_add₀ two_ne_zero]
    rfl
  rw [rational_eq hlast, Value.number, hsplit, mul_right_comm ((2 : ℚ) ^ (53 : ℤ))]
  refine mul_le_mul_of_nonneg_right ?_ (by positivity)
  norm_num

/-- The last place is not among the very smallest numbers. -/
theorem le_inv_powerOfTen : 2 ^ (-1024 : ℤ) * (8 / 5) ≤ (rational (powerOfTen d))⁻¹ := by
  have hpos : 0 < rational (powerOfTen d) := by linarith [one_le_powerOfTen hd]
  rw [le_inv_comm₀ (by positivity) hpos]
  refine (powerOfTen_le hd).trans_eq ?_
  rw [mul_inv, zpow_neg, inv_inv]
  norm_num

/-- **The places of a range are a grid.** -/
theorem grid_places :
    Grid (· * powerOfTen d) (· / powerOfTen d) (rational (powerOfTen d))⁻¹ := by
  have hfinite := isFinite_powerOfTen hd
  have hpos : 0 < rational (powerOfTen d) := by linarith [one_le_powerOfTen hd]
  refine grid_of_scales ?_ (scales_div hfinite hpos) ?_
  · rw [inv_inv]
    exact scales_mul hfinite hpos
  · exact (le_mul_of_one_le_right (by positivity) (by norm_num)).trans (le_inv_powerOfTen hd)

/-- The last place is near to one over the power of ten. -/
theorem powerOfTen_neg_spec : (powerOfTen (-d)).isFinite = true ∧
    2 ^ (-1024 : ℤ) ≤ rational (powerOfTen (-d)) ∧
    |rational (powerOfTen (-d)) - (rational (powerOfTen d))⁻¹| ≤
      (rational (powerOfTen d))⁻¹ / 2 ^ 49 := by
  have hone := one_le_powerOfTen hd
  have hpos : 0 < rational (powerOfTen d) := by linarith
  have hinv : 0 < (rational (powerOfTen d))⁻¹ := inv_pos.mpr hpos
  have hlow := le_inv_powerOfTen hd
  have hnear := (grid_places hd).ofUnits.near (x := 1.0) (by decide +kernel)
  rw [rational_one, one_mul, ← powerOfTen_neg] at hnear
  have hfinite : (powerOfTen (-d)).isFinite = true := by
    refine hnear.finite ?_
    rw [abs_of_pos hinv]
    exact (inv_le_one_of_one_le₀ hone).trans_lt (one_lt_zpow₀ one_lt_two (by norm_num))
  have hclose := hnear.close hfinite
  have htiny : (2 : ℚ) ^ (-1074 : ℤ) = 2 ^ (-50 : ℤ) * 2 ^ (-1024 : ℤ) := by
    rw [← zpow_add₀ two_ne_zero]
    rfl
  have hpart : (2 : ℚ) ^ (-50 : ℤ) = 1 / 2 ^ 50 := by norm_num
  rw [abs_of_pos hinv, htiny, hpart] at hclose
  have hlowest : (0 : ℚ) < 2 ^ (-1024 : ℤ) := by positivity
  refine ⟨hfinite, ?_, by linarith⟩
  linarith [(abs_le.mp hclose).1]

end Places

end Setting

end Deposition
