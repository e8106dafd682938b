import Deposition.Number.Single

/-!
# Numbers by their rank

A bit pattern is more than the number it stands for: zero has two patterns, and what is no number
has many. Whoever only compares single-precision numbers sees no more of them than their rank, and
so whatever is made by comparing them is known up to the rank. How much is that? Two patterns of
one rank that is not zero are the same (`Deposition.Single.eq_of_rank_eq`), so what remains open
is the sign of a zero (`Deposition.Single.Alike`), and a difference does not bring more of it to
light than the sign of a zero again (`Deposition.Single.Alike.sub`).
-/

namespace Deposition

namespace Single

variable {a b : Single} {x : Int}

/-- Negative zero. -/
def negativeZero : Single := ⟨0x80000000⟩

/-- A rank is a magnitude with a sign. -/
theorem rank_eq_some (h : a.rank = some x) :
    x = if 2147483648 ≤ a.bits.toNat then -((a.bits.toNat % 2147483648 : Nat) : Int)
      else ((a.bits.toNat % 2147483648 : Nat) : Int) := by
  unfold rank at h
  split at h
  · cases h
  · exact (Option.some.inj h).symm

theorem eq_of_toNat_eq (h : a.bits.toNat = b.bits.toNat) : a = b := by
  cases a
  cases b
  exact congrArg Single.mk (UInt32.toNat_inj.mp h)

/-- **A rank other than zero belongs to one pattern.** -/
theorem eq_of_rank_eq (ha : a.rank = some x) (hb : b.rank = some x) (hx : x ≠ 0) : a = b := by
  have ha' := rank_eq_some ha
  have hb' := rank_eq_some hb
  have hlta := a.bits.toNat_lt
  have hltb := b.bits.toNat_lt
  exact eq_of_toNat_eq (by split at ha' <;> split at hb' <;> omega)

/-- **Rank zero belongs to the two zeros.** -/
theorem eq_zero_of_rank (h : a.rank = some 0) : a = zero ∨ a = negativeZero := by
  have hbits := rank_eq_some h
  have hlt := a.bits.toNat_lt
  have : a.bits.toNat = 0 ∨ a.bits.toNat = 2147483648 := by split at hbits <;> omega
  exact this.imp (fun h => eq_of_toNat_eq h) fun h => eq_of_toNat_eq h

/-- **The same number, up to the sign of a zero.** -/
def Alike (a b : Single) : Prop := a = b ∨ a.rank = some 0 ∧ b.rank = some 0

theorem Alike.refl (a : Single) : Alike a a := .inl rfl

/-- Numbers of the same rank are alike. -/
theorem alike_of_rank_eq (ha : a.rank = some x) (hb : b.rank = some x) : Alike a b := by
  by_cases hx : x = 0
  · exact .inr ⟨hx ▸ ha, hx ▸ hb⟩
  · exact .inl (eq_of_rank_eq ha hb hx)

/-! ### Comparisons -/

/-- **The comparison of numbers**: the first is not above the second. What is no number cannot be
compared. -/
def AtMost (a b : Single) : Prop := a.isNaN = false ∧ b.isNaN = false ∧ b.lt a = false

instance (a b : Single) : Decidable (AtMost a b) :=
  inferInstanceAs (Decidable (a.isNaN = false ∧ b.isNaN = false ∧ b.lt a = false))

theorem isNaN_eq_false_iff : a.isNaN = false ↔ ∃ x, a.rank = some x := by
  unfold rank
  split
  · next h => simp [h]
  · next h => simpa using h

/-- Numbers are compared by their ranks. -/
theorem atMost_iff : a.AtMost b ↔ ∃ x y, a.rank = some x ∧ b.rank = some y ∧ x ≤ y := by
  rw [AtMost, isNaN_eq_false_iff, isNaN_eq_false_iff]
  constructor
  · rintro ⟨⟨x, hx⟩, ⟨y, hy⟩, hlt⟩
    refine ⟨x, y, hx, hy, Int.not_lt.mp fun hyx => ?_⟩
    simp [lt_iff.mpr ⟨y, x, hy, hx, hyx⟩] at hlt
  · rintro ⟨x, y, hx, hy, hle⟩
    refine ⟨⟨x, hx⟩, ⟨y, hy⟩, Bool.eq_false_iff.mpr fun hlt => ?_⟩
    obtain ⟨y', x', hy', hx', hlt⟩ := lt_iff.mp hlt
    obtain rfl : x = x' := Option.some.inj (hx.symm.trans hx')
    obtain rfl : y = y' := Option.some.inj (hy.symm.trans hy')
    omega

/-! ### Differences -/

open Float.Model in
/-- A number less a zero, once both are taken apart. -/
theorem exists_sub_zero (a : Single) : ∃ x : UnpackedFloat,
    a.sub zero = ⟨(Float32.Model.pack (x.sub .binary32 (.zero .positive))).toBits⟩ ∧
      a.sub negativeZero = ⟨(Float32.Model.pack (x.sub .binary32 (.zero .negative))).toBits⟩ :=
  ⟨(Float32.ofBits a.bits).toModel.unpack, rfl, rfl⟩

open Float.Model in
/-- **A number less a zero** is the number, or a zero if it is one itself. -/
theorem sub_zero_alike (a : Single) : Alike (a.sub zero) (a.sub negativeZero) := by
  obtain ⟨x, hpos, hneg⟩ := exists_sub_zero a
  rw [hpos, hneg]
  cases x with
  | notANumber | infinity | finite => exact .refl _
  | zero sign => cases sign <;> exact .inr ⟨rfl, rfl⟩

/-- **Differences from what is alike are alike.** -/
theorem Alike.sub (h : Alike a b) (c : Single) : Alike (c.sub a) (c.sub b) := by
  have symm : Alike (c.sub negativeZero) (c.sub zero) :=
    (sub_zero_alike c).imp Eq.symm And.symm
  obtain rfl | ⟨ha, hb⟩ := h
  · exact .refl _
  · rcases eq_zero_of_rank ha with rfl | rfl <;> rcases eq_zero_of_rank hb with rfl | rfl
    · exact .refl _
    · exact sub_zero_alike c
    · exact symm
    · exact .refl _

end Single

end Deposition
