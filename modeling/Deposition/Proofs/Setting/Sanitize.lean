import Deposition.Proofs.Setting.Settling
import Deposition.Configuration

/-!
# Values in use

The value that a user chose is settled and fitted into the bounds before it is used, and a value
that is no finite number gives way to the default. The result is within the bounds whatever was
chosen, and it is a number unless one overflows on a side without bound
(`Deposition.Setting.Range.sanitize_projects`).

One would like this to be a projection, that what is used may be sanitised again without a change.
It is one as far as the default and the bounds lie on the grid of the range; what is used otherwise
is settled already. A bound off the grid is the last word the first time, and is snapped the next
time (`Deposition.Setting.Range.sanitize_moves`).
-/

namespace Deposition

namespace Setting

open Binary

namespace Range

/-! ### Ranges that make sense -/

/-- **A range that makes sense**: the default and the bounds are numbers, in order. -/
structure Sound (r : Range) : Prop where
  /-- The default is a number. -/
  finite : r.default.isFinite = true
  /-- The lower bound is a number not above the default. -/
  low {low : Float} : r.min = some low → low.isFinite = true ∧ low ≤ r.default
  /-- The upper bound is a number not below the default. -/
  high {high : Float} : r.max = some high → high.isFinite = true ∧ r.default ≤ high

variable {r : Range}

/-- Two bounds with the default between them. -/
theorem sound_of_bounds {low high : Float} (hmin : r.min = some low) (hmax : r.max = some high)
    (h : r.default.isFinite = true ∧ low.isFinite = true ∧ high.isFinite = true ∧
      low ≤ r.default ∧ r.default ≤ high) : r.Sound where
  finite := h.1
  low hlow := Option.some.inj (hmin.symm.trans hlow) ▸ ⟨h.2.1, h.2.2.2.1⟩
  high hhigh := Option.some.inj (hmax.symm.trans hhigh) ▸ ⟨h.2.2.1, h.2.2.2.2⟩

/-! ### The bounds -/

section Bounds

variable {x y low high : Float}

/-- A value is raised to the lower bound if it is below it. -/
theorem raise_cases (r : Range) (v : Float) : r.raise v = v ∧ (∀ low, r.min = some low → ¬v < low) ∨
    ∃ low, r.min = some low ∧ v < low ∧ r.raise v = low := by
  cases hmin : r.min with
  | none => exact .inl ⟨by simp only [raise, hmin], fun low hlow => by cases hlow⟩
  | some low =>
    by_cases hlt : v < low
    · exact .inr ⟨low, rfl, hlt, by simp only [raise, hmin, if_pos hlt]⟩
    · exact .inl ⟨by simp only [raise, hmin, if_neg hlt],
        fun low' hlow => Option.some.inj hlow ▸ hlt⟩

/-- A value is lowered to the upper bound if it is above it. -/
theorem lower_cases (r : Range) (v : Float) :
    r.lower v = v ∧ (∀ high, r.max = some high → ¬high < v) ∨
      ∃ high, r.max = some high ∧ high < v ∧ r.lower v = high := by
  cases hmax : r.max with
  | none => exact .inl ⟨by simp only [lower, hmax], fun high hhigh => by cases hhigh⟩
  | some high =>
    by_cases hgt : high < v
    · exact .inr ⟨high, rfl, hgt, by simp only [lower, hmax, gt_iff_lt, if_pos hgt]⟩
    · exact .inl ⟨by simp only [lower, hmax, gt_iff_lt, if_neg hgt],
        fun high' hhigh => Option.some.inj hhigh ▸ hgt⟩

theorem sanitize_of_not_finite (hx : x.isFinite = false) : r.sanitize x = r.default := by
  rw [sanitize, hx]
  rfl

variable (hsound : r.Sound)

include hsound

/-- The bounds are in order. -/
theorem Sound.bounds (hmin : r.min = some low) (hmax : r.max = some high) : low ≤ high := by
  obtain ⟨hlow, hle⟩ := hsound.low hmin
  obtain ⟨hhigh, hle'⟩ := hsound.high hmax
  rw [le_iff hlow hsound.finite] at hle
  rw [le_iff hsound.finite hhigh] at hle'
  exact (le_iff hlow hhigh).mpr (hle.trans hle')

/-- **A number is settled and fitted into the bounds**: it stays as it is between them, and is one
of them beyond. -/
theorem Sound.sanitize_cases (hx : x.isFinite = true) :
    r.sanitize x = r.settle x ∧ (∀ low, r.min = some low → ¬r.settle x < low) ∧
        (∀ high, r.max = some high → ¬high < r.settle x) ∨
      (∃ low, r.min = some low ∧ r.settle x < low ∧ r.sanitize x = low) ∨
      ∃ high, r.max = some high ∧ high < r.settle x ∧ r.sanitize x = high := by
  have hsanitize : r.sanitize x = r.lower (r.raise (r.settle x)) := by
    rw [sanitize, if_pos hx]
    rfl
  rw [hsanitize]
  obtain ⟨hraise, hlow⟩ | ⟨low, hmin, hlt, hraise⟩ := raise_cases r (r.settle x)
  · rw [hraise]
    obtain ⟨hlower, hhigh⟩ | ⟨high, hmax, hgt, hlower⟩ := lower_cases r (r.settle x)
    · exact .inl ⟨hlower, hlow, hhigh⟩
    · exact .inr (.inr ⟨high, hmax, hgt, hlower⟩)
  · rw [hraise]
    refine .inr (.inl ⟨low, hmin, hlt, ?_⟩)
    obtain ⟨hlower, -⟩ | ⟨high, hmax, hgt, -⟩ := lower_cases r low
    · exact hlower
    · have hfinite := (hsound.low hmin).1
      have hfinite' := (hsound.high hmax).1
      have hle := hsound.bounds hmin hmax
      rw [le_iff hfinite hfinite'] at hle
      rw [lt_iff hfinite' hfinite] at hgt
      exact absurd hgt hle.not_gt

/-- **What is used is a number**, or else what was settled, past a side without bound. -/
theorem Sound.sanitize_value (hregular : r.Regular) (x : Float) :
    (r.sanitize x).isFinite = true ∨ ∃ negative, ofFloat (r.sanitize x) = .infinite negative ∧
      ofFloat (r.settle x) = .infinite negative ∧ (if negative then r.min else r.max) = none := by
  cases hx : x.isFinite with
  | false => exact .inl (sanitize_of_not_finite hx ▸ hsound.finite)
  | true =>
    obtain ⟨hsame, hlow, hhigh⟩ | ⟨low, hmin, -, hsame⟩ | ⟨high, hmax, -, hsame⟩ :=
      hsound.sanitize_cases hx
    · rw [hsame]
      cases hvalue : ofFloat (r.settle x) with
      | nan => exact absurd hvalue (hregular.settle_ne_nan (ne_nan_of_isFinite hx))
      | finite negative m q =>
        refine .inl ?_
        rw [isFinite_eq, hvalue]
        rfl
      | infinite negative =>
        refine .inr ⟨negative, rfl, rfl, ?_⟩
        -- a bound on that side would have been used instead
        cases negative with
        | true =>
          cases hmin : r.min with
          | none => rfl
          | some low => exact absurd (lt_of_infinite (hsound.low hmin).1 hvalue) (hlow low hmin)
        | false =>
          cases hmax : r.max with
          | none => rfl
          | some high => exact absurd (lt_infinite (hsound.high hmax).1 hvalue) (hhigh high hmax)
    · exact .inl (hsame ▸ (hsound.low hmin).1)
    · exact .inl (hsame ▸ (hsound.high hmax).1)

/-- **What is used is not below the lower bound.** -/
theorem Sound.le_sanitize (hregular : r.Regular) (hmin : r.min = some low) (x : Float) :
    low ≤ r.sanitize x := by
  obtain ⟨hfinite, hle⟩ := hsound.low hmin
  cases hx : x.isFinite with
  | false => rwa [sanitize_of_not_finite hx]
  | true =>
    obtain ⟨hsame, hlow, -⟩ | ⟨low', hmin', -, hsame⟩ | ⟨high, hmax, -, hsame⟩ :=
      hsound.sanitize_cases hx
    · rw [hsame]
      exact le_of_not_lt hfinite (hregular.settle_ne_nan (ne_nan_of_isFinite hx)) (hlow low hmin)
    · rw [hsame, ← Option.some.inj (hmin.symm.trans hmin')]
      exact (le_iff hfinite hfinite).mpr le_rfl
    · rw [hsame]
      exact hsound.bounds hmin hmax

/-- **What is used is not above the upper bound.** -/
theorem Sound.sanitize_le (hregular : r.Regular) (hmax : r.max = some high) (x : Float) :
    r.sanitize x ≤ high := by
  obtain ⟨hfinite, hle⟩ := hsound.high hmax
  cases hx : x.isFinite with
  | false => rwa [sanitize_of_not_finite hx]
  | true =>
    obtain ⟨hsame, -, hhigh⟩ | ⟨low, hmin, -, hsame⟩ | ⟨high', hmax', -, hsame⟩ :=
      hsound.sanitize_cases hx
    · rw [hsame]
      exact ge_of_not_gt hfinite (hregular.settle_ne_nan (ne_nan_of_isFinite hx)) (hhigh high hmax)
    · rw [hsame]
      exact hsound.bounds hmin hmax
    · rw [hsame, ← Option.some.inj (hmax.symm.trans hmax')]
      exact (le_iff hfinite hfinite).mpr le_rfl

/-- **A value within the bounds is left alone** if it is settled, or if it is a bound and would be
settled beyond it. -/
theorem Sound.sanitize_eq_self_iff (hy : y.isFinite = true)
    (hlow : ∀ low, r.min = some low → low ≤ y) (hhigh : ∀ high, r.max = some high → y ≤ high) :
    r.sanitize y = y ↔ r.settle y = y ∨ r.min = some y ∧ r.settle y < y ∨
      r.max = some y ∧ y < r.settle y := by
  obtain ⟨hsame, hlow', hhigh'⟩ | ⟨low, hmin, hlt, hsame⟩ | ⟨high, hmax, hgt, hsame⟩ :=
    hsound.sanitize_cases hy
  · rw [hsame]
    refine ⟨.inl, ?_⟩
    rintro (hfixed | ⟨hmin, hlt⟩ | ⟨hmax, hgt⟩)
    · exact hfixed
    · exact absurd hlt (hlow' y hmin)
    · exact absurd hgt (hhigh' y hmax)
  · have hfinite := (hsound.low hmin).1
    have hle := hlow low hmin
    rw [hsame]
    constructor
    · rintro rfl
      exact .inr (.inl ⟨hmin, hlt⟩)
    · rintro (hfixed | ⟨hmin', -⟩ | ⟨-, hgt⟩)
      · rw [hfixed, lt_iff hy hfinite] at hlt
        rw [le_iff hfinite hy] at hle
        exact absurd hlt hle.not_gt
      · exact Option.some.inj (hmin.symm.trans hmin')
      · exact absurd hlt (not_lt_of_le_of_lt hfinite hy hle hgt)
  · have hfinite := (hsound.high hmax).1
    have hle := hhigh high hmax
    rw [hsame]
    constructor
    · rintro rfl
      exact .inr (.inr ⟨hmax, hgt⟩)
    · rintro (hfixed | ⟨-, hlt⟩ | ⟨hmax', -⟩)
      · rw [hfixed, lt_iff hfinite hy] at hgt
        rw [le_iff hy hfinite] at hle
        exact absurd hgt hle.not_gt
      · exact absurd hlt (not_lt_of_le_of_lt hy hfinite hle hgt)
      · exact Option.some.inj (hmax.symm.trans hmax')

/-- What is used in place of a number is settled, unless it is a bound. -/
theorem Sound.sanitize_eq_settle (hx : x.isFinite = true) (hmin : r.min ≠ some (r.sanitize x))
    (hmax : r.max ≠ some (r.sanitize x)) : r.sanitize x = r.settle x := by
  obtain ⟨hsame, -⟩ | ⟨low, hlow, -, hsame⟩ | ⟨high, hhigh, -, hsame⟩ := hsound.sanitize_cases hx
  · exact hsame
  · exact absurd (hsame ▸ hlow) hmin
  · exact absurd (hsame ▸ hhigh) hmax

/-- **Sanitising is a projection onto the range**, as far as the bounds and the default lie on its
grid.

Whatever the value, the one that is used is a number within the bounds; the default is used for what
is no finite number, and an infinity only if a number overflows on a side without bound. Sanitising
again leaves it alone exactly if it is settled, or if it is a bound that would be settled beyond
itself; and it is settled unless it is the default or a bound, as long as the steps resolve it. -/
theorem sanitize_projects (hregular : r.Regular) (x : Float) :
    (x.isFinite = false → r.sanitize x = r.default) ∧
    (∀ low, r.min = some low → low ≤ r.sanitize x) ∧
    (∀ high, r.max = some high → r.sanitize x ≤ high) ∧
    ((r.sanitize x).isFinite = true ∨ ∃ negative, ofFloat (r.sanitize x) = .infinite negative ∧
      ofFloat (r.settle x) = .infinite negative ∧ (if negative then r.min else r.max) = none) ∧
    (r.sanitize (r.sanitize x) = r.sanitize x ↔ (r.sanitize x).isFinite = true ∧
      (r.settle (r.sanitize x) = r.sanitize x ∨
        r.min = some (r.sanitize x) ∧ r.settle (r.sanitize x) < r.sanitize x ∨
        r.max = some (r.sanitize x) ∧ r.sanitize x < r.settle (r.sanitize x))) ∧
    (x.isFinite = true → (r.sanitize x).isFinite = true → r.min ≠ some (r.sanitize x) →
      r.max ≠ some (r.sanitize x) → r.Resolves (r.sanitize x) →
      r.sanitize (r.sanitize x) = r.sanitize x) := by
  have hlow (low : Float) (hmin : r.min = some low) := hsound.le_sanitize hregular hmin x
  have hhigh (high : Float) (hmax : r.max = some high) := hsound.sanitize_le hregular hmax x
  have hagain (hy : (r.sanitize x).isFinite = true) := hsound.sanitize_eq_self_iff hy hlow hhigh
  refine ⟨sanitize_of_not_finite, hlow, hhigh, hsound.sanitize_value hregular x, ⟨fun hsame => ?_,
    fun ⟨hy, hrest⟩ => (hagain hy).mpr hrest⟩, fun hx hy hmin hmax hresolves => ?_⟩
  · cases hy : (r.sanitize x).isFinite with
    | true => exact ⟨rfl, (hagain hy).mp hsame⟩
    | false =>
      -- an infinity gives way to the default, which is a number
      have hdefault : r.sanitize (r.sanitize x) = r.default := sanitize_of_not_finite hy
      rw [hsame] at hdefault
      rw [hdefault, hsound.finite] at hy
      cases hy
  · have hsettle := hsound.sanitize_eq_settle hx hmin hmax
    rw [hsettle] at hy hresolves
    refine (hagain (hsettle ▸ hy)).mpr (.inl ?_)
    rw [hsettle, hregular.settle_settle hy hresolves]

end Bounds

/-- A step of a twentieth, and two decimal places. -/
def twentieths : Range :=
  { default := 0.35
    min := some 0.1
    max := some 1.0
    decimalPlaces := some 2
    increment := some 0.05 }

/-- The value is nine steps. -/
theorem sanitize_projects_twentieths : twentieths.Sound ∧ twentieths.Regular ∧
    twentieths.Resolves (twentieths.sanitize 0.456) ∧ 0.1 ≤ twentieths.sanitize 0.456 ∧
    twentieths.sanitize (twentieths.sanitize 0.456) = twentieths.sanitize 0.456 := by
  have hsound : twentieths.Sound := sound_of_bounds rfl rfl (by decide +kernel)
  have hregular : twentieths.Regular := by
    refine ⟨fun {d} hd => ?_, fun {u} hu => ?_⟩
    · obtain rfl := Option.some.inj hd
      decide
    · obtain rfl := Option.some.inj hu
      decide +kernel
  have hvalue : rational (twentieths.sanitize 0.456) = 8106479329266893 * 2 ^ (-54 : ℤ) := by
    have hbits : ofFloat (twentieths.sanitize 0.456) = .finite false 8106479329266893 (-54) := by
      decide +kernel
    rw [rational_eq hbits, Value.number]
    norm_num
  have hstep : rational 0.05 = 7205759403792794 * 2 ^ (-57 : ℤ) := by
    have hbits : ofFloat 0.05 = .finite false 7205759403792794 (-57) := by decide +kernel
    rw [rational_eq hbits, Value.number]
    norm_num
  have hresolves : twentieths.Resolves (twentieths.sanitize 0.456) := by
    refine hregular.resolves_of_few (fun u hu _ => ?_) (fun d hd => ?_)
    · obtain rfl := Option.some.inj hu
      rw [hvalue, hstep]
      norm_num
    · obtain rfl := Option.some.inj hd
      rw [hvalue, rational_powerOfTen_two]
      norm_num
  obtain ⟨-, hlow, -, -, -, hagain⟩ := sanitize_projects hsound hregular 0.456
  exact ⟨hsound, hregular, hresolves, hlow 0.1 rfl, hagain (by decide +kernel) (by decide +kernel)
    (by decide +kernel) (by decide +kernel) hresolves⟩

/-- A lower bound that is off the grid. -/
def offGrid : Range :=
  { default := 0.2
    min := some 0.16
    max := some 1.0
    increment := some 0.1 }

/-- Decimal places, and no bounds. -/
def placesOnly (d : ℕ) : Range := { unbounded 0.0 with decimalPlaces := some d }

theorem sound_placesOnly (d : ℕ) : (placesOnly d).Sound := by
  refine ⟨?_, fun h => (by cases h), fun h => (by cases h)⟩
  have hzero : (0.0 : Float).isFinite = true := by decide +kernel
  exact hzero

theorem sound_offGrid : offGrid.Sound :=
  sound_of_bounds rfl rfl (by decide +kernel)

/-- **A bound off the grid is not left alone**: zero is raised to it, and it is snapped when it is
sanitised itself. And a number that overflows becomes infinite, and none if its scale does. -/
theorem sanitize_moves :
    (offGrid.Sound ∧ offGrid.sanitize (offGrid.sanitize 0.0) ≠ offGrid.sanitize 0.0) ∧
    ((placesOnly 2).Sound ∧ ((placesOnly 2).sanitize 1e308).isFinite = false) ∧
    ((placesOnly 400).Sound ∧ ofFloat ((placesOnly 400).sanitize 1.0) = .nan) :=
  ⟨⟨sound_offGrid, by decide +kernel⟩, ⟨sound_placesOnly 2, by decide +kernel⟩,
    ⟨sound_placesOnly 400, by decide +kernel⟩⟩

end Range

end Setting

end Deposition
