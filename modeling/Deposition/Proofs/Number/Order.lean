import Deposition.Proofs.Number.Double
import Deposition.Proofs.Number.Whole

/-!
# Double precision in order

Numbers in double precision are compared by their exponents first and by their significands then,
and that is the order of the rational numbers that they are (`Deposition.Binary.lt_iff`): the larger
of two exponents goes with a significand that has all its bits. For the same reason a rational
number is at most one of them, zero apart, which has two signs
(`Deposition.Binary.eq_of_rational_eq`).
-/

namespace Deposition

namespace Binary

open Float.Model (UnpackedFloat)
open Float.Model.UnpackedFloat

/-- The number that a value in double precision is; zero if it is none. -/
def rational (x : Float) : ℚ :=
  match ofFloat x with
  | .finite negative m q => Value.number negative m q
  | _ => 0

theorem rational_eq {x : Float} {negative : Bool} {m : ℕ} {q : ℤ}
    (h : ofFloat x = .finite negative m q) : rational x = Value.number negative m q := by
  simp only [rational, h]

namespace Format

variable {f : Format} {m m' : ℕ} {q q' : ℤ}

/-- A larger exponent makes the larger number. -/
theorem Number.lt_of_exponent_lt (h : f.Number m q) (h' : f.Number m' q') (hq : q < q') :
    (m : ℚ) * 2 ^ q < m' * 2 ^ q' := by
  have hnormal := h'.normal (h.unit_le.trans_lt hq)
  calc (m : ℚ) * 2 ^ q < 2 ^ (f.fraction + 1) * 2 ^ q :=
        mul_lt_mul_of_pos_right (by exact_mod_cast h.lt) (by positivity)
    _ = 2 ^ f.fraction * 2 ^ (q + 1) := by
        rw [zpow_add_one₀ two_ne_zero]
        ring
    _ ≤ m' * 2 ^ q' :=
        mul_le_mul (by exact_mod_cast hnormal) (zpow_le_zpow_right₀ one_le_two hq) (by positivity)
          (by positivity)

/-- **Magnitudes are in the order of exponents and significands.** -/
theorem Number.lt_iff (h : f.Number m q) (h' : f.Number m' q') :
    (m : ℚ) * 2 ^ q < m' * 2 ^ q' ↔ q < q' ∨ q = q' ∧ m < m' := by
  obtain hlt | rfl | hgt := lt_trichotomy q q'
  · exact iff_of_true (h.lt_of_exponent_lt h' hlt) (.inl hlt)
  · rw [mul_lt_mul_iff_left₀ (by positivity), Nat.cast_lt]
    simp
  · exact iff_of_false (h'.lt_of_exponent_lt h hgt).not_gt (by omega)

/-- A magnitude is that of one exponent and one significand. -/
theorem Number.eq_of_eq (h : f.Number m q) (h' : f.Number m' q')
    (heq : (m : ℚ) * 2 ^ q = m' * 2 ^ q') : m = m' ∧ q = q' := by
  have hlt := mt (h.lt_iff h').mpr heq.not_lt
  have hgt := mt (h'.lt_iff h).mpr heq.not_gt
  omega

/-- Comparing exponents and significands compares magnitudes. -/
theorem Number.compare_eq (h : f.Number m q) (h' : f.Number m' q') :
    (compare q q').then (compare m m') = compare ((m : ℚ) * 2 ^ q) (m' * 2 ^ q') := by
  obtain hlt | heq | hgt := lt_trichotomy ((m : ℚ) * 2 ^ q) (m' * 2 ^ q')
  · rw [compare_lt_iff_lt.mpr hlt, Ordering.then_eq_lt, compare_lt_iff_lt, compare_eq_iff_eq,
      compare_lt_iff_lt]
    exact (h.lt_iff h').mp hlt
  · rw [compare_eq_iff_eq.mpr heq, Ordering.then_eq_eq, compare_eq_iff_eq, compare_eq_iff_eq]
    exact (h.eq_of_eq h' heq).symm
  · rw [compare_gt_iff_gt.mpr hgt, Ordering.then_eq_gt, compare_gt_iff_gt, compare_eq_iff_eq,
      compare_gt_iff_gt]
    exact ((h'.lt_iff h).mp hgt).imp_right (And.imp_left Eq.symm)

end Format

/-! ### Comparisons -/

theorem compare_neg (a b : ℚ) : compare (-a) (-b) = (compare a b).swap := by
  obtain hlt | rfl | hgt := lt_trichotomy a b
  · rw [compare_lt_iff_lt.mpr hlt, compare_gt_iff_gt.mpr (neg_lt_neg hlt), Ordering.swap_lt]
  · rw [compare_eq_iff_eq.mpr rfl, compare_eq_iff_eq.mpr rfl, Ordering.swap_eq]
  · rw [compare_gt_iff_gt.mpr hgt, compare_lt_iff_lt.mpr (neg_lt_neg hgt), Ordering.swap_gt]

section Compare

variable {x y : Float} (hx : x.isFinite = true) (hy : y.isFinite = true)

theorem lt_iff_compare :
    x < y ↔ (ofFloat x).unpacked.compare (ofFloat y).unpacked = some .lt := by
  rw [← unpack_eq, ← unpack_eq]
  refine Iff.trans ?_ beq_iff_eq
  change decide (x.toModel < y.toModel) = true ↔ _
  rw [decide_eq_true_eq]
  rfl

theorem le_iff_compare :
    x ≤ y ↔ ((ofFloat x).unpacked.compare (ofFloat y).unpacked).any Ordering.isLE = true := by
  rw [← unpack_eq, ← unpack_eq]
  change decide (x.toModel ≤ y.toModel) = true ↔ _
  rw [decide_eq_true_eq]
  rfl

include hy in
/-- Below every number. -/
theorem lt_of_infinite (hx : ofFloat x = .infinite true) : x < y := by
  obtain ⟨negative, m, q, hy⟩ := exists_of_isFinite (isFinite_eq y ▸ hy)
  rw [lt_iff_compare, hx, hy]
  simp only [Value.unpacked]
  split <;> rfl

include hx in
/-- Above every number. -/
theorem lt_infinite (hy : ofFloat y = .infinite false) : x < y := by
  obtain ⟨negative, m, q, hx⟩ := exists_of_isFinite (isFinite_eq x ▸ hx)
  rw [lt_iff_compare, hx, hy]
  simp only [Value.unpacked]
  split
  · cases negative <;> rfl
  · rfl

include hy in
theorem not_lt_of_infinite (hx : ofFloat x = .infinite false) : ¬x < y := by
  obtain ⟨negative, m, q, hy⟩ := exists_of_isFinite (isFinite_eq y ▸ hy)
  rw [lt_iff_compare, hx, hy]
  simp only [Value.unpacked]
  split <;> exact fun h => Ordering.noConfusion (Option.some.inj h)

omit hx hy in
theorem le_of_lt (h : x < y) : x ≤ y := by
  rw [le_iff_compare, lt_iff_compare.mp h]
  rfl

omit hx hy in
/-- Nothing is below what is no number. -/
theorem not_lt_nan (hy : ofFloat y = .nan) : ¬x < y := by
  rw [lt_iff_compare, hy]
  cases (ofFloat x).unpacked <;> rintro ⟨⟩

omit hx hy in
/-- Nothing is below the lower infinity. -/
theorem not_lt_infinite (hy : ofFloat y = .infinite true) : ¬x < y := by
  rw [lt_iff_compare, hy]
  cases (ofFloat x).unpacked with
  | notANumber => rintro ⟨⟩
  | infinity s => cases s <;> rintro ⟨⟩
  | zero s => cases s <;> rintro ⟨⟩
  | finite s m q hm => cases s <;> rintro ⟨⟩

include hx hy

/-- **Numbers are compared as the rationals that they are.** -/
theorem compare_unpacked : (ofFloat x).unpacked.compare (ofFloat y).unpacked =
    some (compare (rational x) (rational y)) := by
  obtain ⟨negative, m, q, hx⟩ := exists_of_isFinite (isFinite_eq x ▸ hx)
  obtain ⟨negative', m', q', hy⟩ := exists_of_isFinite (isFinite_eq y ▸ hy)
  have heq := (Format.Number.of_decode (by decide) hx).compare_eq
    (Format.Number.of_decode (by decide) hy)
  have hpos {m : ℕ} (q : ℤ) (hm : 0 < m) : 0 < (m : ℚ) * 2 ^ q := by positivity
  rw [rational_eq hx, rational_eq hy, hx, hy]
  simp only [Value.unpacked, Value.number]
  obtain rfl | hm := Nat.eq_zero_or_pos m <;> obtain rfl | hm' := Nat.eq_zero_or_pos m'
  · simp [UnpackedFloat.compare]
  · have hlt := hpos q' hm'
    rw [dif_neg (lt_irrefl 0), dif_pos hm']
    cases negative'
    · exact congrArg some (compare_lt_iff_lt.mpr (by simpa)).symm
    · exact congrArg some (compare_gt_iff_gt.mpr (by simpa)).symm
  · have hlt := hpos q hm
    rw [dif_pos hm, dif_neg (lt_irrefl 0)]
    cases negative
    · exact congrArg some (compare_gt_iff_gt.mpr (by simpa)).symm
    · exact congrArg some (compare_lt_iff_lt.mpr (by simpa)).symm
  · have hlt := hpos q hm
    have hlt' := hpos q' hm'
    rw [dif_pos hm, dif_pos hm']
    cases negative <;> cases negative'
    · simpa [UnpackedFloat.compare, signOf] using heq
    · exact congrArg some (compare_gt_iff_gt.mpr (by simp; linarith)).symm
    · exact congrArg some (compare_lt_iff_lt.mpr (by simp; linarith)).symm
    · simpa [UnpackedFloat.compare, signOf, compare_neg] using congrArg Ordering.swap heq

theorem lt_iff : x < y ↔ rational x < rational y := by
  rw [lt_iff_compare, compare_unpacked hx hy, Option.some.injEq, compare_lt_iff_lt]

theorem le_iff : x ≤ y ↔ rational x ≤ rational y := by
  rw [le_iff_compare, compare_unpacked hx hy, Option.any_some, Ordering.isLE_iff_ne_gt]
  exact compare_le_iff_le

omit hy in
/-- What is not below a number is above it, or the same. -/
theorem le_of_not_lt (hy : ofFloat y ≠ .nan) (h : ¬y < x) : x ≤ y := by
  cases hvalue : ofFloat y with
  | nan => exact absurd hvalue hy
  | infinite negative =>
    cases negative with
    | false => exact le_of_lt (lt_infinite hx hvalue)
    | true => exact absurd (lt_of_infinite hx hvalue) h
  | finite negative m q =>
    have hy : y.isFinite = true := by
      rw [isFinite_eq, hvalue]
      rfl
    rw [lt_iff hy hx] at h
    exact (le_iff hx hy).mpr (not_lt.mp h)

omit hy in
/-- What is not above a number is below it, or the same. -/
theorem ge_of_not_gt (hy : ofFloat y ≠ .nan) (h : ¬x < y) : y ≤ x := by
  cases hvalue : ofFloat y with
  | nan => exact absurd hvalue hy
  | infinite negative =>
    cases negative with
    | false => exact absurd (lt_infinite hx hvalue) h
    | true => exact le_of_lt (lt_of_infinite hx hvalue)
  | finite negative m q =>
    have hy : y.isFinite = true := by
      rw [isFinite_eq, hvalue]
      rfl
    rw [lt_iff hx hy] at h
    exact (le_iff hy hx).mpr (not_lt.mp h)

/-- What is above a number is not below a smaller one. -/
theorem not_lt_of_le_of_lt {v : Float} (hle : x ≤ y) (hlt : y < v) : ¬v < x := by
  cases hvalue : ofFloat v with
  | nan => exact absurd hlt (not_lt_nan hvalue)
  | infinite negative =>
    cases negative with
    | false => exact not_lt_of_infinite hx hvalue
    | true => exact absurd hlt (not_lt_infinite hvalue)
  | finite negative m q =>
    have hv : v.isFinite = true := by
      rw [isFinite_eq, hvalue]
      rfl
    rw [le_iff hx hy] at hle
    rw [lt_iff hy hv] at hlt
    rw [lt_iff hv hx, not_lt]
    exact hle.trans hlt.le

/-- **A rational number other than zero is at most one number in double precision.** -/
theorem eq_of_rational_eq (h : rational x = rational y) (hne : rational x ≠ 0) : x = y := by
  obtain ⟨negative, m, q, hvalue⟩ := exists_of_isFinite (isFinite_eq x ▸ hx)
  obtain ⟨negative', m', q', hvalue'⟩ := exists_of_isFinite (isFinite_eq y ▸ hy)
  have hn := Format.Number.of_decode (by decide) hvalue
  have hn' := Format.Number.of_decode (by decide) hvalue'
  rw [rational_eq hvalue, rational_eq hvalue'] at h
  rw [rational_eq hvalue] at hne
  have hpos : 0 ≤ (m : ℚ) * 2 ^ q := by positivity
  have hpos' : 0 ≤ (m' : ℚ) * 2 ^ q' := by positivity
  -- numbers of different signs are the same only if they are zero
  have hsame : negative = negative' ∧ (m : ℚ) * 2 ^ q = m' * 2 ^ q' := by
    cases negative <;> cases negative' <;>
      simp only [Value.number, Bool.false_eq_true, if_true, if_false, one_mul, neg_mul, neg_inj,
        ne_eq, neg_eq_zero] at h hne
    · exact ⟨rfl, h⟩
    · exact absurd (le_antisymm (by linarith) hpos) hne
    · exact absurd (le_antisymm (by linarith) hpos) hne
    · exact ⟨rfl, h⟩
  obtain ⟨rfl, heq⟩ := hsame
  obtain ⟨rfl, rfl⟩ := hn.eq_of_eq hn' heq
  rw [← toFloat_ofFloat hx, ← toFloat_ofFloat hy, hvalue, hvalue']

end Compare

theorem rational_zero : rational 0.0 = 0 := by
  have hvalue : ofFloat 0.0 = .finite false 0 (-1074) := by decide +kernel
  rw [rational_eq hvalue, Value.number, Nat.cast_zero, mul_zero, zero_mul]

theorem rational_one : rational 1.0 = 1 := by
  have hvalue : ofFloat 1.0 = .finite false (2 ^ 52) (-52) := by decide +kernel
  rw [rational_eq hvalue, Value.number]
  norm_num

end Binary

end Deposition
