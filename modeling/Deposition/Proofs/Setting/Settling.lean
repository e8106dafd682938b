import Deposition.Proofs.Setting.PowerOfTen

/-!
# Settled values

A value is snapped to the step of its range and rounded to the decimal places: it is *settled*
(`Deposition.Setting.Range.settle`). Both are grids, as long as the powers of ten do not overflow
and the step is not infinite (`Deposition.Setting.Range.Regular`), so that no number is settled to
none.

To settle a value once more changes nothing if the steps *resolve* it
(`Deposition.Setting.Range.Resolves`). It may not be too many steps, and where a range has a step
and decimal places, one may not be so near to the other that the rounding errors make up the
difference, which they cannot with a value of few places
(`Deposition.Setting.Range.Regular.resolves_of_few`). Then what is settled stays settled
(`Deposition.Setting.Range.Regular.settle_settle`).
-/

namespace Deposition

namespace Setting

open Binary

namespace Range

/-- The value before it is fitted into the bounds. -/
def settle (r : Range) (x : Float) : Float := r.roundPlaces (r.snap x)

/-- **A range that can be computed with**: no power of ten overflows, and the step is not
infinite. -/
structure Regular (r : Range) : Prop where
  /-- The powers of ten up to this one are numbers. -/
  places {d : ℕ} : r.decimalPlaces = some d → d ≤ 308
  /-- The step is not infinite. -/
  increment {u : Float} : r.increment = some u → ofFloat u ≠ .infinite false

variable {r : Range}

/-! ### The grids of a range -/

/-- An increment that is above zero is a positive number, or infinite. -/
theorem pos_of_increment {u : Float} (hpos : u > 0.0) (hu : ofFloat u ≠ .infinite false) :
    u.isFinite = true ∧ 0 < rational u := by
  cases hvalue : ofFloat u with
  | nan => exact absurd hpos (not_lt_nan hvalue)
  | infinite negative =>
    cases negative with
    | false => exact absurd hvalue hu
    | true => exact absurd hpos (not_lt_infinite hvalue)
  | finite negative m q =>
    have hfinite : u.isFinite = true := by
      rw [isFinite_eq, hvalue]
      rfl
    refine ⟨hfinite, ?_⟩
    rwa [gt_iff_lt, lt_iff (by decide +kernel) hfinite, rational_zero] at hpos

/-- **The step** is the increment if it is positive, else the last place. -/
theorem step?_cases (r : Range) : (∃ u, r.increment = some u ∧ u > 0.0 ∧ r.step? = some u) ∨
    r.step? = r.decimalPlaces.map fun d : ℕ => powerOfTen (-d) := by
  have hplaces : (r.decimalPlaces.map fun d => powerOfTen (-(d : ℤ))) =
      r.decimalPlaces.map fun d : ℕ => powerOfTen (-d) := by
    cases r.decimalPlaces <;> rfl
  cases hincrement : r.increment with
  | none =>
    simp only [step?, hincrement]
    exact .inr hplaces
  | some u =>
    simp only [step?, hincrement]
    split
    · next hpos => exact .inl ⟨u, rfl, hpos, rfl⟩
    · exact .inr hplaces

/-- **The step of a range is a grid.** -/
theorem Regular.grid_step (hregular : r.Regular) {u : Float} (hu : r.step? = some u) :
    Grid (· / u) (· * u) (rational u) := by
  have hspec : u.isFinite = true ∧ 0 < rational u := by
    obtain ⟨u', hincrement, hpos, hstep⟩ | hstep := step?_cases r
    · obtain rfl := Option.some.inj (hstep.symm.trans hu)
      exact pos_of_increment hpos (hregular.increment hincrement)
    · obtain ⟨d, hd, rfl⟩ := Option.map_eq_some_iff.mp (hstep.symm.trans hu)
      obtain ⟨hfinite, hlow, -⟩ := powerOfTen_neg_spec (hregular.places hd)
      exact ⟨hfinite, lt_of_lt_of_le (by positivity) hlow⟩
  exact grid_of_pos hspec.1 hspec.2

theorem snap_of_step {u : Float} (hu : r.step? = some u) (x : Float) :
    r.snap x = toGrid (· / u) (· * u) x := by
  simp only [snap, hu, toGrid]

theorem snap_of_none (hu : r.step? = none) (x : Float) : r.snap x = x := by
  simp only [snap, hu]

theorem roundPlaces_of_places {d : ℕ} (hd : r.decimalPlaces = some d) (x : Float) :
    r.roundPlaces x = toGrid (· * powerOfTen d) (· / powerOfTen d) x := by
  simp only [roundPlaces, hd, toGrid]

theorem roundPlaces_of_none (hd : r.decimalPlaces = none) (x : Float) : r.roundPlaces x = x := by
  simp only [roundPlaces, hd]

/-- **Snapping and rounding make no number into none.** -/
theorem Regular.settle_ne_nan (hregular : r.Regular) {x : Float} (hx : ofFloat x ≠ .nan) :
    ofFloat (r.settle x) ≠ .nan := by
  have hsnap : ofFloat (r.snap x) ≠ .nan := by
    cases hu : r.step? with
    | none => rwa [snap_of_none hu]
    | some u =>
      rw [snap_of_step hu]
      exact (hregular.grid_step hu).toGrid_ne_nan hx
  cases hd : r.decimalPlaces with
  | none => rwa [settle, roundPlaces_of_none hd]
  | some d =>
    rw [settle, roundPlaces_of_places hd]
    exact (grid_places (hregular.places hd)).toGrid_ne_nan hsnap

/-! ### Settling twice -/

/-- **The steps of a range resolve a value** if there are not too many of them up to there, and if
an increment and the last place that come together are alike, or else apart by more than the
rounding errors. -/
structure Resolves (r : Range) (y : Float) : Prop where
  /-- Not too many increments. -/
  increment {u : Float} : r.increment = some u → u > 0.0 → |rational y| ≤ 2 ^ 43 * rational u
  /-- Not too many last places. -/
  places {d : ℕ} : r.decimalPlaces = some d → |rational y| * rational (powerOfTen d) ≤ 2 ^ 43
  /-- The two are alike or apart. -/
  apart {u : Float} {d : ℕ} : r.increment = some u → u > 0.0 → r.decimalPlaces = some d →
    |rational y| / 2 ^ 45 ≤ |rational u - (rational (powerOfTen d))⁻¹| ∨
      |rational y| * |rational u - (rational (powerOfTen d))⁻¹| ≤
        (rational (powerOfTen d))⁻¹ ^ 2 / 8

/-- **A value of few last places is resolved**: a difference of the units that is no more than the
rounding errors does not come to much with so few of them. -/
theorem Regular.resolves_of_few (hregular : r.Regular) {y : Float}
    (hincrement : ∀ u, r.increment = some u → u > 0.0 → |rational y| ≤ 2 ^ 43 * rational u)
    (hplaces : ∀ d : ℕ, r.decimalPlaces = some d →
      |rational y| * rational (powerOfTen d) ≤ 2 ^ 21) : r.Resolves y := by
  refine ⟨hincrement _, fun {d} hd => (hplaces d hd).trans (by norm_num), fun {u d} _ _ hd => ?_⟩
  have hpos : 0 < rational (powerOfTen d) := by
    linarith [one_le_powerOfTen (hregular.places hd)]
  have hle : |rational y| ≤ 2 ^ 21 * (rational (powerOfTen d))⁻¹ := by
    rw [← div_eq_mul_inv, le_div_iff₀ hpos]
    exact hplaces d hd
  obtain hapart | hnear :=
    le_or_gt (|rational y| / 2 ^ 45) |rational u - (rational (powerOfTen d))⁻¹|
  · exact .inl hapart
  · right
    calc |rational y| * |rational u - (rational (powerOfTen d))⁻¹|
        ≤ |rational y| * (|rational y| / 2 ^ 45) := by gcongr
      _ ≤ 2 ^ 21 * (rational (powerOfTen d))⁻¹ *
            (2 ^ 21 * (rational (powerOfTen d))⁻¹ / 2 ^ 45) := by gcongr
      _ = (rational (powerOfTen d))⁻¹ ^ 2 / 8 := by ring

/-- Not too many last places. -/
theorem Resolves.places_le {y : Float} {d : ℕ} (hresolves : r.Resolves y) (hregular : r.Regular)
    (hd : r.decimalPlaces = some d) : |rational y| ≤ 2 ^ 43 * (rational (powerOfTen d))⁻¹ := by
  have hone := one_le_powerOfTen (hregular.places hd)
  rw [← div_eq_mul_inv, le_div_iff₀ (by linarith)]
  exact hresolves.places hd

/-- Whether the step is an increment or the last place, it resolves the value, and it is alike to
the last place or apart from it. -/
theorem Resolves.step {y u : Float} {d : ℕ} (hresolves : r.Resolves y) (hregular : r.Regular)
    (hu : r.step? = some u) (hd : r.decimalPlaces = some d) :
    |rational y| ≤ 2 ^ 44 * rational u ∧
      (|rational y| / 2 ^ 45 ≤ |rational u - (rational (powerOfTen d))⁻¹| ∨
        |rational y| * |rational u - (rational (powerOfTen d))⁻¹| ≤
          (rational (powerOfTen d))⁻¹ ^ 2 / 8) := by
  have hpos := (hregular.grid_step hu).pos
  obtain ⟨u', hincrement, hpositive, hu'⟩ | hstep := step?_cases r
  · obtain rfl := Option.some.inj (hu'.symm.trans hu)
    have hle := hresolves.increment hincrement hpositive
    exact ⟨by linarith, hresolves.apart hincrement hpositive hd⟩
  · -- the step is the last place itself, and the two differ by a rounding error
    rw [hstep, hd, Option.map_some, Option.some.injEq] at hu
    have hinv := (grid_places (hregular.places hd)).pos
    obtain ⟨-, -, hnear⟩ := powerOfTen_neg_spec (hregular.places hd)
    have hle := hresolves.places_le hregular hd
    rw [← hu]
    refine ⟨by linarith [(abs_le.mp hnear).1], .inr ?_⟩
    calc |rational y| * |rational (powerOfTen (-d)) - (rational (powerOfTen d))⁻¹|
        ≤ 2 ^ 43 * (rational (powerOfTen d))⁻¹ * ((rational (powerOfTen d))⁻¹ / 2 ^ 49) :=
          mul_le_mul hle hnear (abs_nonneg _) (by positivity)
      _ ≤ (rational (powerOfTen d))⁻¹ ^ 2 / 8 := by
          rw [sq]
          linarith [mul_pos hinv hinv]

/-- **What is settled stays settled**, if the steps resolve it. -/
theorem Regular.settle_settle (hregular : r.Regular) {x : Float}
    (hx : (r.settle x).isFinite = true) (hresolves : r.Resolves (r.settle x)) :
    r.settle (r.settle x) = r.settle x := by
  cases hd : r.decimalPlaces with
  | none =>
    have hsettle (x : Float) : r.settle x = r.snap x := roundPlaces_of_none hd _
    simp only [hsettle] at hx hresolves ⊢
    obtain ⟨u, hincrement, hpos, hu⟩ | hstep := step?_cases r
    · have hle := hresolves.increment hincrement hpos
      simp only [snap_of_step hu] at hx hle ⊢
      exact (hregular.grid_step hu).toGrid_toGrid hx hle
    · rw [hd, Option.map_none] at hstep
      simp only [snap_of_none hstep]
  | some d =>
    have hlimit := hregular.places hd
    obtain ⟨u, hu⟩ : ∃ u, r.step? = some u := by
      obtain ⟨u, -, -, hu⟩ | hstep := step?_cases r
      · exact ⟨u, hu⟩
      · exact ⟨powerOfTen (-d), by rw [hstep, hd, Option.map_some]⟩
    have hsettle (x : Float) : r.settle x =
        toGrid (· * powerOfTen d) (· / powerOfTen d) (toGrid (· / u) (· * u) x) := by
      rw [settle, roundPlaces_of_places hd, snap_of_step hu]
    obtain ⟨hle, hunits⟩ := hresolves.step hregular hu hd
    have hle' := hresolves.places_le hregular hd
    have hone := inv_le_one_of_one_le₀ (one_le_powerOfTen hlimit)
    simp only [hsettle] at hx hle hle' hunits ⊢
    exact toGrid_toGrid_two (hregular.grid_step hu) (grid_places hlimit) hone hx hle hle' hunits

end Range

end Setting

end Deposition
