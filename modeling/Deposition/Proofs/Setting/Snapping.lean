import Deposition.Proofs.Setting.Whole

/-!
# Snapping to a grid

A number is snapped to a grid when it is turned into units, rounded to a whole number of them, and
turned back. The two conversions round, so that a multiple of the unit is not turned back into
exactly as many units as it was made of; but as long as the errors stay well below a half, rounding
takes them away. What has been snapped stays as it is when it is snapped again
(`Deposition.Setting.Grid.toGrid_toGrid`).

With two grids in turn the second one may move a number off the first. Four cases are all that
matters (`Deposition.Setting.toGrid_toGrid_two`). Zero is on every grid. If the first unit is the
smaller one, then the first grid moves a number by less than half of the second unit, and it
returns. If it is the larger one, then the second grid moves a number by less than half of the first
unit, and the first grid brings it to where it had been before. And if the two units are alike, then
a multiple of one is as good a multiple of the other. What is excluded is a difference of the units
that is small, and yet counts for a number of many units.
-/

namespace Deposition

namespace Setting

open Binary

/-- A number in units, rounded to a whole one and turned back. -/
def toGrid (f g : Float → Float) (x : Float) : Float := g (nearestWhole (f x))

/-- **A grid**: a number is turned into units and back by scaling. -/
structure Grid (f g : Float → Float) (u : ℚ) : Prop where
  /-- Into units. -/
  toUnits : Scales f u⁻¹
  /-- Out of units. -/
  ofUnits : Scales g u
  /-- A whole number of units has a small error, measured in units. -/
  close {z : Float} {k : ℤ} : z.isFinite = true → rational z = k → (g z).isFinite = true →
    |rational (g z) - k * u| ≤ (|k * u| + u) / 2 ^ 50

variable {f g : Float → Float} {u : ℚ} {x z : Float}

theorem isFinite_of_nearestWhole (h : (nearestWhole x).isFinite = true) : x.isFinite = true := by
  rw [isFinite_eq] at h ⊢
  cases hvalue : ofFloat x with
  | nan => rwa [nearestWhole_nan hvalue] at h
  | infinite negative => rwa [nearestWhole_infinite hvalue] at h
  | finite negative m q => rfl

theorem nearestWhole_ne_nan (h : ofFloat x ≠ .nan) : ofFloat (nearestWhole x) ≠ .nan := by
  cases hvalue : ofFloat x with
  | nan => exact absurd hvalue h
  | infinite negative =>
    rw [nearestWhole_infinite hvalue]
    exact Value.noConfusion
  | finite negative m q =>
    exact ne_nan_of_isFinite (nearestWhole_spec (by rw [isFinite_eq, hvalue]; rfl)).1

/-- **A unit that is none of the very smallest numbers** is one of a grid: the smallest errors are
small against it. -/
theorem grid_of_scales (hf : Scales f u⁻¹) (hg : Scales g u) (hu : 2 ^ (-1024 : ℤ) ≤ u) :
    Grid f g u := by
  refine ⟨hf, hg, fun {z k} hz hk hfinite => ?_⟩
  have hclose := (hg.near hz).close hfinite
  have htiny : (2 : ℚ) ^ (-1074 : ℤ) = 2 ^ (-50 : ℤ) * 2 ^ (-1024 : ℤ) := by
    rw [← zpow_add₀ two_ne_zero]
    rfl
  rw [hk, htiny] at hclose
  calc |rational (g z) - k * u|
      ≤ 2 ^ (-50 : ℤ) * |k * u| + 2 ^ (-50 : ℤ) * 2 ^ (-1024 : ℤ) := hclose
    _ ≤ 2 ^ (-50 : ℤ) * |k * u| + 2 ^ (-50 : ℤ) * u := by gcongr
    _ = (|k * u| + u) / 2 ^ 50 := by
        rw [zpow_neg]
        field_simp

/-- **Every positive number is the unit of a grid**, however small it is. -/
theorem grid_of_pos {y : Float} (hy : y.isFinite = true) (hpos : 0 < rational y) :
    Grid (· / y) (· * y) (rational y) := by
  refine ⟨scales_div hy hpos, scales_mul hy hpos, fun {z k} hz hk hfinite => ?_⟩
  have hclose := abs_mul_sub_le_of_whole hy hpos hz hk hfinite
  rw [hk] at hclose
  calc |rational (z * y) - k * rational y| ≤ 2 ^ (-50 : ℤ) * |k * rational y| := hclose
    _ = |k * rational y| / 2 ^ 50 := by
        rw [zpow_neg]
        field_simp
    _ ≤ (|k * rational y| + rational y) / 2 ^ 50 := by gcongr; linarith

namespace Grid

variable (h : Grid f g u)

include h

theorem pos : 0 < u := h.ofUnits.pos

/-- **Snapping never makes no number of one**, infinite ones included. -/
theorem toGrid_ne_nan (hx : ofFloat x ≠ .nan) : ofFloat (toGrid f g x) ≠ .nan :=
  h.ofUnits.ne_nan' (nearestWhole_ne_nan (h.toUnits.ne_nan' hx))

/-- A number comes only from numbers. -/
theorem isFinite_toUnits (hx : (toGrid f g x).isFinite = true) : (f x).isFinite = true :=
  isFinite_of_nearestWhole (h.ofUnits.isFinite_of hx)

theorem isFinite_of_toGrid (hx : (toGrid f g x).isFinite = true) : x.isFinite = true :=
  h.toUnits.isFinite_of (h.isFinite_toUnits hx)

/-- Zeros stay where they are. -/
theorem toGrid_zero (hx : x.isFinite = true) (hzero : rational x = 0) : toGrid f g x = x := by
  have hwhole : nearestWhole x = x :=
    nearestWhole_of_whole hx (k := 0) (by rw [hzero, Int.cast_zero])
  rw [toGrid, h.toUnits.zero hx hzero, hwhole, h.ofUnits.zero hx hzero]

/-- A number that is not too large has units. -/
theorem isFinite_of_le (hx : x.isFinite = true) (hle : |rational x| ≤ 2 ^ 50 * u) :
    (f x).isFinite = true := by
  refine (h.toUnits.near hx).finite ?_
  rw [abs_mul, abs_of_pos h.toUnits.pos, ← div_eq_mul_inv]
  calc |rational x| / u ≤ 2 ^ 50 := (div_le_iff₀ h.pos).mpr hle
    _ < 2 ^ (1023 : ℤ) := zpow_lt_zpow_right₀ (m := 50) one_lt_two (by norm_num)

/-- **Into units**: the whole number of units is a half unit away, and a rounding error. -/
theorem exists_units (hx : x.isFinite = true) (hfinite : (f x).isFinite = true) :
    (nearestWhole (f x)).isFinite = true ∧ ∃ k : ℤ, rational (nearestWhole (f x)) = k ∧
      |k * u - rational x| ≤ u / 2 + (|rational x| + u) / 2 ^ 50 := by
  obtain ⟨hwhole, k, hk, hhalf⟩ := nearestWhole_spec hfinite
  refine ⟨hwhole, k, hk, ?_⟩
  have hclose := (h.toUnits.near hx).close hfinite
  have hpos := h.pos
  have hscaled : |rational (f x) * u - rational x| ≤ (|rational x| + u) / 2 ^ 50 := by
    have htiny : (2 : ℚ) ^ (-1074 : ℤ) ≤ 2 ^ (-50 : ℤ) :=
      zpow_le_zpow_right₀ one_le_two (by norm_num)
    calc |rational (f x) * u - rational x| = |rational (f x) - rational x * u⁻¹| * u := by
          rw [← abs_of_pos hpos, ← abs_mul, abs_of_pos hpos]
          congr 1
          field_simp
      _ ≤ (2 ^ (-50 : ℤ) * |rational x * u⁻¹| + 2 ^ (-50 : ℤ)) * u :=
          mul_le_mul_of_nonneg_right (hclose.trans (by gcongr)) hpos.le
      _ = (|rational x| + u) / 2 ^ 50 := by
          rw [abs_mul, abs_of_pos (inv_pos.mpr hpos)]
          field_simp
  have hwholes : |k * u - rational (f x) * u| ≤ u / 2 := by
    rw [← sub_mul, abs_mul, abs_of_pos hpos]
    linarith [mul_le_mul_of_nonneg_right hhalf hpos.le]
  calc |k * u - rational x| ≤ |k * u - rational (f x) * u| + |rational (f x) * u - rational x| :=
        abs_sub_le _ _ _
    _ ≤ u / 2 + (|rational x| + u) / 2 ^ 50 := add_le_add hwholes hscaled

/-- Multiples that are less than a unit apart are the same. -/
theorem eq_of_abs_sub_lt {k k' : ℤ} (hlt : |k * u - k' * u| < u) : k = k' := by
  have hpos := h.pos
  rw [← sub_mul, abs_mul, abs_of_pos hpos, mul_lt_iff_lt_one_left hpos, ← Int.cast_sub,
    ← Int.cast_abs] at hlt
  have hsame : |k - k'| < 1 := by exact_mod_cast hlt
  rwa [Int.abs_lt_one_iff, sub_eq_zero] at hsame

/-- Whole numbers of units that are less than a unit apart are the same, zeros apart. -/
theorem eq_of_units {z' : Float} {k k' : ℤ} (hz : z.isFinite = true) (hz' : z'.isFinite = true)
    (hk : rational z = k) (hk' : rational z' = k') (hne : rational z' ≠ 0)
    (hlt : |k * u - k' * u| < u) : z = z' := by
  have hsame : rational z = rational z' := by rw [hk, hk', h.eq_of_abs_sub_lt hlt]
  exact eq_of_rational_eq hz hz' hsame (hsame ▸ hne)

/-- **A multiple of the unit is turned into as many units again.** -/
theorem toUnits_ofUnits (hz : z.isFinite = true) {k : ℤ} (hk : rational z = k)
    (hfinite : (g z).isFinite = true) (hle : |rational (g z)| ≤ 2 ^ 43 * u) :
    nearestWhole (f (g z)) = z := by
  by_cases hzero : rational z = 0
  · rw [h.ofUnits.zero hz hzero, h.toUnits.zero hz hzero, nearestWhole_of_whole hz hk]
  have hpos := h.pos
  obtain ⟨hwhole, k', hk', hunits⟩ :=
    h.exists_units hfinite (h.isFinite_of_le hfinite (by linarith))
  have hmultiple := h.close hz hk hfinite
  have hsize : |k * u| ≤ 2 ^ 44 * u := by
    have := abs_sub_abs_le_abs_sub (k * u) (rational (g z))
    rw [abs_sub_comm] at this
    linarith
  refine h.eq_of_units hwhole hz hk' hk hzero ?_
  have := abs_sub_le (k' * u) (rational (g z)) (k * u)
  linarith

/-- **What has been snapped stays as it is**, if it is not too many units. -/
theorem toGrid_toGrid (hx : (toGrid f g x).isFinite = true)
    (hle : |rational (toGrid f g x)| ≤ 2 ^ 43 * u) :
    toGrid f g (toGrid f g x) = toGrid f g x := by
  obtain ⟨hz, k, hk, -⟩ := nearestWhole_spec (h.isFinite_toUnits hx)
  exact congrArg g (h.toUnits_ofUnits hz hk hx hle)

/-- **What is no zero is a unit at least**, and its error is small against it. -/
theorem multiple_of_ne_zero (hz : z.isFinite = true) {k : ℤ} (hk : rational z = k)
    (hfinite : (g z).isFinite = true) (hne : rational (g z) ≠ 0) :
    u ≤ |k * u| ∧ |rational (g z) - k * u| ≤ 2 * |k * u| / 2 ^ 50 ∧
      |k * u| ≤ |rational (g z)| + 2 * |k * u| / 2 ^ 50 := by
  have hpos := h.pos
  have hmultiple := h.close hz hk hfinite
  have hone : u ≤ |k * u| := by
    have hzero : k ≠ 0 := by
      rintro rfl
      rw [Int.cast_zero] at hk
      exact hne (by rw [h.ofUnits.zero hz hk, hk])
    have habs : (1 : ℚ) ≤ |(k : ℚ)| := by exact_mod_cast Int.one_le_abs hzero
    rw [abs_mul, abs_of_pos hpos]
    exact le_mul_of_one_le_left hpos.le habs
  have hsize := abs_sub_abs_le_abs_sub (k * u) (rational (g z))
  rw [abs_sub_comm] at hsize
  exact ⟨hone, by linarith, by linarith⟩

end Grid

/-! ### Two grids -/

section Two

variable {f₁ g₁ f₂ g₂ : Float → Float} {u₁ u₂ : ℚ} (h₁ : Grid f₁ g₁ u₁) (h₂ : Grid f₂ g₂ u₂)

include h₁ h₂

section Multiple

variable (hlimit : u₂ ≤ 1) (hz : z.isFinite = true) {n : ℤ} (hn : rational z = n)
  (hfinite : (g₂ z).isFinite = true) (hne : rational (g₂ z) ≠ 0)
  (hle : |rational (g₂ z)| ≤ 2 ^ 43 * u₂)

include hlimit hz hn hfinite hne hle

/-- A multiple of the second unit that is snapped to the first one returns, if it was moved by less
than half of its own unit. -/
theorem toGrid_toGrid_of_close {k : ℤ} (hwhole : (nearestWhole (f₁ (g₂ z))).isFinite = true)
    (hk : rational (nearestWhole (f₁ (g₂ z))) = k)
    (hclose : |k * u₁ - rational (g₂ z)| + 4 * (|rational (g₂ z)| + u₁ + u₂) / 2 ^ 50 ≤ u₂ / 2) :
    toGrid f₂ g₂ (toGrid f₁ g₁ (g₂ z)) = g₂ z := by
  have hpos₁ := h₁.pos
  have hpos₂ := h₂.pos
  obtain ⟨hone, hmultiple, hcount⟩ := h₂.multiple_of_ne_zero hz hn hfinite hne
  obtain ⟨w, hw⟩ : ∃ w, toGrid f₁ g₁ (g₂ z) = w := ⟨_, rfl⟩
  have hw' : g₁ (nearestWhole (f₁ (g₂ z))) = w := hw
  have hnonneg := abs_nonneg (rational (g₂ z))
  have hmoved := abs_nonneg (k * u₁ - rational (g₂ z))
  have hsize : |k * u₁| ≤ |rational (g₂ z)| + u₂ / 2 := by
    have := abs_sub_abs_le_abs_sub (k * u₁) (rational (g₂ z))
    linarith
  have hwfinite : w.isFinite = true := by
    rw [← hw']
    refine (h₁.ofUnits.near hwhole).finite ?_
    rw [hk]
    calc |k * u₁| ≤ 2 ^ 44 := by linarith
      _ < 2 ^ (1023 : ℤ) := zpow_lt_zpow_right₀ (m := 44) one_lt_two (by norm_num)
  have hback := h₁.close hwhole hk (hw' ▸ hwfinite)
  rw [hw'] at hback
  have hwsize := (abs_sub_abs_le_abs_sub (rational w) (k * u₁)).trans hback
  obtain ⟨hwhole', n', hn', hunits⟩ :=
    h₂.exists_units hwfinite (h₂.isFinite_of_le hwfinite (by linarith))
  have hzero : rational z ≠ 0 := fun hzero => hne (by rw [h₂.ofUnits.zero hz hzero, hzero])
  have hround : nearestWhole (f₂ w) = z := by
    refine h₂.eq_of_units hwhole' hz hn' hn hzero ?_
    -- from the units after over what lies between to the units before
    have := abs_sub_le (n' * u₂) (rational w) (n * u₂)
    have := abs_sub_le (rational w) (k * u₁) (n * u₂)
    have := abs_sub_le (k * u₁) (rational (g₂ z)) (n * u₂)
    linarith
  rw [hw, toGrid, hround]

/-- Units that are alike count the same number of them. -/
theorem toGrid_toGrid_of_alike (hle₁ : |rational (g₂ z)| ≤ 2 ^ 44 * u₁)
    (halike : |rational (g₂ z)| * |u₁ - u₂| ≤ u₂ ^ 2 / 8) :
    toGrid f₂ g₂ (toGrid f₁ g₁ (g₂ z)) = g₂ z := by
  have hpos₁ := h₁.pos
  have hpos₂ := h₂.pos
  obtain ⟨hone, hmultiple, hcount⟩ := h₂.multiple_of_ne_zero hz hn hfinite hne
  obtain ⟨hwhole, k, hk, hunits⟩ :=
    h₁.exists_units hfinite (h₁.isFinite_of_le hfinite (by linarith))
  -- as many of the first units are not far from as many of the second ones
  have hnear : |n * u₁ - n * u₂| ≤ u₂ / 7 := by
    have hsize : |(n : ℚ)| * u₂ ≤ 8 / 7 * |rational (g₂ z)| := by
      rw [abs_mul, abs_of_pos hpos₂] at hcount
      linarith [abs_nonneg (rational (g₂ z))]
    have hproduct : |(n : ℚ)| * |u₁ - u₂| * u₂ ≤ u₂ / 7 * u₂ := by
      have := mul_le_mul_of_nonneg_right hsize (abs_nonneg (u₁ - u₂))
      linarith
    rw [← mul_sub, abs_mul]
    exact le_of_mul_le_mul_right hproduct hpos₂
  have hunit : |u₁ - u₂| ≤ u₂ / 7 := by
    have hcount : 1 ≤ |(n : ℚ)| := by
      rw [abs_mul, abs_of_pos hpos₂] at hone
      exact le_of_mul_le_mul_right (by linarith) hpos₂
    calc |u₁ - u₂| ≤ |(n : ℚ)| * |u₁ - u₂| := le_mul_of_one_le_left (abs_nonneg _) hcount
      _ = |n * u₁ - n * u₂| := by rw [← abs_mul, mul_sub]
      _ ≤ u₂ / 7 := hnear
  have hmoved : |n * u₁ - rational (g₂ z)| ≤ u₂ / 6 := by
    have := abs_sub_le (n * u₁) (n * u₂) (rational (g₂ z))
    rw [abs_sub_comm (n * u₂)] at this
    linarith
  obtain ⟨hbelow, habove⟩ := abs_le.mp hunit
  have hsame : k = n := by
    refine h₁.eq_of_abs_sub_lt ?_
    have := abs_sub_le (k * u₁) (rational (g₂ z)) (n * u₁)
    rw [abs_sub_comm (rational (g₂ z))] at this
    linarith
  refine toGrid_toGrid_of_close h₁ h₂ hlimit hz hn hfinite hne hle hwhole hk ?_
  rw [hsame]
  linarith

/-- A smaller first unit does not move a number by half of the second one. -/
theorem toGrid_toGrid_of_lt (hle₁ : |rational (g₂ z)| ≤ 2 ^ 44 * u₁)
    (hapart : |rational (g₂ z)| / 2 ^ 45 ≤ u₂ - u₁) :
    toGrid f₂ g₂ (toGrid f₁ g₁ (g₂ z)) = g₂ z := by
  have hpos₁ := h₁.pos
  obtain ⟨hone, hmultiple, hcount⟩ := h₂.multiple_of_ne_zero hz hn hfinite hne
  obtain ⟨hwhole, k, hk, hunits⟩ :=
    h₁.exists_units hfinite (h₁.isFinite_of_le hfinite (by linarith))
  refine toGrid_toGrid_of_close h₁ h₂ hlimit hz hn hfinite hne hle hwhole hk ?_
  linarith [abs_nonneg (rational (g₂ z))]

end Multiple

/-- A larger first unit counts the same number of them before and after. -/
theorem toGrid_toGrid_of_gt (hx : (toGrid f₂ g₂ (toGrid f₁ g₁ x)).isFinite = true)
    (hne : rational (toGrid f₂ g₂ (toGrid f₁ g₁ x)) ≠ 0)
    (hle₁ : |rational (toGrid f₂ g₂ (toGrid f₁ g₁ x))| ≤ 2 ^ 44 * u₁)
    (hapart : |rational (toGrid f₂ g₂ (toGrid f₁ g₁ x))| / 2 ^ 45 ≤ u₁ - u₂) :
    toGrid f₂ g₂ (toGrid f₁ g₁ (toGrid f₂ g₂ (toGrid f₁ g₁ x))) =
      toGrid f₂ g₂ (toGrid f₁ g₁ x) := by
  have hpos₁ := h₁.pos
  have hpos₂ := h₂.pos
  obtain ⟨w, hw⟩ : ∃ w, toGrid f₁ g₁ x = w := ⟨_, rfl⟩
  obtain ⟨y, hy⟩ : ∃ y, toGrid f₂ g₂ w = y := ⟨_, rfl⟩
  have hw' : g₁ (nearestWhole (f₁ x)) = w := hw
  have hy' : g₂ (nearestWhole (f₂ w)) = y := hy
  rw [hw, hy] at hx hne hle₁ hapart ⊢
  have hwfinite : w.isFinite = true := h₂.isFinite_of_toGrid (hy ▸ hx)
  obtain ⟨hz, k, hk, -⟩ := nearestWhole_spec (h₁.isFinite_toUnits (hw ▸ hwfinite))
  obtain ⟨hz₂, n, hn, hunits⟩ := h₂.exists_units hwfinite (h₂.isFinite_toUnits (hy ▸ hx))
  obtain ⟨hone, hmultiple, hcount⟩ :=
    h₂.multiple_of_ne_zero hz₂ hn (hy'.symm ▸ hx) (hy'.symm ▸ hne)
  obtain ⟨hwhole, k', hk', hunits'⟩ :=
    h₁.exists_units hx (h₁.isFinite_of_le hx (hle₁.trans (by linarith)))
  have hback := h₁.close hz hk (hw'.symm ▸ hwfinite)
  rw [hw'] at hback
  rw [hy'] at hmultiple hcount
  have hzero : rational (nearestWhole (f₁ x)) ≠ 0 := by
    intro hzero
    have hvalue : rational w = 0 := by rw [← hw', h₁.ofUnits.zero hz hzero, hzero]
    exact hne (by rw [← hy, h₂.toGrid_zero hwfinite hvalue, hvalue])
  have hround : nearestWhole (f₁ y) = nearestWhole (f₁ x) := by
    refine h₁.eq_of_units hwhole hz hk' hk hzero ?_
    have := abs_sub_le (k' * u₁) (rational y) (k * u₁)
    have := abs_sub_le (rational y) (n * u₂) (k * u₁)
    have := abs_sub_le (n * u₂) (rational w) (k * u₁)
    have := abs_sub_abs_le_abs_sub (rational w) (n * u₂)
    rw [abs_sub_comm (rational w)] at this
    have := abs_sub_abs_le_abs_sub (k * u₁) (rational w)
    rw [abs_sub_comm _ (rational w)] at this
    linarith
  have hsame : toGrid f₁ g₁ y = w := by rw [toGrid, hround, hw']
  rw [hsame, hy]

/-- **What has been snapped to two grids stays as it is**, if it is not too many units, and if the
units are alike, or else apart by more than the rounding errors. -/
theorem toGrid_toGrid_two (hlimit : u₂ ≤ 1)
    (hx : (toGrid f₂ g₂ (toGrid f₁ g₁ x)).isFinite = true)
    (hle₁ : |rational (toGrid f₂ g₂ (toGrid f₁ g₁ x))| ≤ 2 ^ 44 * u₁)
    (hle₂ : |rational (toGrid f₂ g₂ (toGrid f₁ g₁ x))| ≤ 2 ^ 43 * u₂)
    (hunits : |rational (toGrid f₂ g₂ (toGrid f₁ g₁ x))| / 2 ^ 45 ≤ |u₁ - u₂| ∨
      |rational (toGrid f₂ g₂ (toGrid f₁ g₁ x))| * |u₁ - u₂| ≤ u₂ ^ 2 / 8) :
    toGrid f₂ g₂ (toGrid f₁ g₁ (toGrid f₂ g₂ (toGrid f₁ g₁ x))) =
      toGrid f₂ g₂ (toGrid f₁ g₁ x) := by
  by_cases hzero : rational (toGrid f₂ g₂ (toGrid f₁ g₁ x)) = 0
  · rw [h₁.toGrid_zero hx hzero, h₂.toGrid_zero hx hzero]
  obtain ⟨hz, n, hn, -⟩ := nearestWhole_spec (h₂.isFinite_toUnits hx)
  obtain hapart | halike := hunits
  · obtain hlt | hle := lt_or_ge u₁ u₂
    · rw [abs_sub_comm, abs_of_pos (sub_pos.mpr hlt)] at hapart
      exact toGrid_toGrid_of_lt h₁ h₂ hlimit hz hn hx hzero hle₂ hle₁ hapart
    · rw [abs_of_nonneg (sub_nonneg.mpr hle)] at hapart
      exact toGrid_toGrid_of_gt h₁ h₂ hx hzero hle₁ hapart
  · exact toGrid_toGrid_of_alike h₁ h₂ hlimit hz hn hx hzero hle₂ hle₁ halike

end Two

end Setting

end Deposition
