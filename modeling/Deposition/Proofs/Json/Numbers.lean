import Deposition.Json.Value
import Deposition.Proofs.Json.Grammar
import Deposition.Proofs.Number.Numeral

/-!
# Numbers in JSON

A number in double precision is written with the fewest digits that read back, with a point or an
exponent where the layout wants one. Three things are shown of the text. It is a number of the JSON
grammar, with nothing superfluous in it; it denotes the decimal that was found, wherever the point
went (`Deposition.Json.Spells`); and read as the nearest double-precision number it is the number
that was written, bit for bit (`Deposition.Json.read?_text`).

Whole numbers are written as integers, and their text is the decimal one.
-/

namespace Deposition

namespace Json

open Text (DigitRun digitsValue)

/-! ### The parts of a number -/

/-- **A text that spells a number**, its sign aside: a whole part, a fraction and an exponent, and
what they are worth together. -/
def Spells (cs : List Char) (x : ℚ) : Prop :=
  ∃ whole fraction tail e, WholeText whole ∧ FractionText fraction ∧ ExponentText tail ∧
    Number.exponent? tail = some e ∧ cs = whole ++ fraction ++ tail ∧
    x = digitsValue (whole ++ fraction.tail) * 10 ^ (e - (fraction.tail.length : ℤ))

theorem WholeText.digitRun {cs : List Char} (h : WholeText cs) : DigitRun cs := by
  obtain rfl | ⟨hrun, -⟩ := h
  · exact Text.digitRun_toDigits 0
  · exact hrun

theorem FractionText.isDigit {cs : List Char} (h : FractionText cs) :
    ∀ c ∈ cs.tail, Text.isDigit c = true := by
  obtain rfl | ⟨ds, hds, rfl⟩ := h
  · simp
  · exact hds.2

theorem takeSign_of_digit {c : Char} (h : Text.isDigit c = true) (cs : List Char) :
    Number.takeSign (c :: cs) = (false, c :: cs) := by
  unfold Number.takeSign
  split
  · next heq =>
    obtain ⟨rfl, -⟩ := List.cons.inj heq
    cases h
  · next heq =>
    obtain ⟨rfl, -⟩ := List.cons.inj heq
    cases h
  · rfl

/-- **What is spelled is the numeral that is read**, behind a minus sign or none. -/
theorem Spells.exists_numeral {cs : List Char} {x : ℚ} (h : Spells cs x) (negative : Bool) :
    ∃ n, Number.numeral? (if negative then '-' :: cs else cs) = some n ∧ n.negative = negative ∧
      n.magnitude = x ∧ ∀ c ∈ n.whole ++ n.fraction, Text.isDigit c = true := by
  obtain ⟨whole, fraction, tail, e, hwhole, hfraction, htail, he, rfl, rfl⟩ := h
  have hends : NoDigit tail ∧ ∀ c ∈ tail.head?, c ≠ '.' := by
    have hnil : EndsNumber [] := by simp [EndsNumber]
    simpa using htail.noDigit_append hnil
  refine ⟨⟨negative, whole, fraction.tail, e⟩, ?_, rfl, rfl, ?_⟩
  · have hsign : Number.takeSign (if negative then '-' :: (whole ++ fraction ++ tail)
        else whole ++ fraction ++ tail) = (negative, whole ++ (fraction ++ tail)) := by
      obtain ⟨d, ds, rfl, hd⟩ := hwhole.exists_cons
      cases negative
      · simp [takeSign_of_digit hd]
      · simp [Number.takeSign]
    obtain ⟨htake, hdrop⟩ := span_digits hwhole.digitRun.2 (hfraction.noDigit_append hends.1)
    have hne : whole.isEmpty = false := by simpa using hwhole.digitRun.1
    simp only [Number.numeral?, hsign, htake, hdrop]
    obtain rfl | ⟨ds, hds, rfl⟩ := hfraction
    · rw [List.nil_append]
      split
      · exact absurd rfl (hends.2 '.' rfl)
      · simp [hne, he]
    · obtain ⟨htake', hdrop'⟩ := span_digits hds.2 hends.1
      simp [hne, he, htake', hdrop']
  · exact fun c hc => (List.mem_append.mp hc).elim (hwhole.digitRun.2 c) (hfraction.isDigit c)

/-- **What is spelled is a number of the grammar.** -/
theorem Spells.numberText {cs : List Char} {x : ℚ} (h : Spells cs x) (negative : Bool) :
    NumberText (if negative then '-' :: cs else cs) := by
  obtain ⟨whole, fraction, tail, -, hwhole, hfraction, htail, -, rfl, -⟩ := h
  refine ⟨if negative then ['-'] else [], whole, fraction, tail, ?_, hwhole, hfraction, htail, ?_⟩
  · cases negative <;> simp
  · cases negative <;> simp

/-! ### Layouts -/

theorem wholeText_toDigits (n : ℕ) : WholeText (Nat.toDigits 10 n) := by
  obtain rfl | hn := Nat.eq_zero_or_pos n
  · exact .inl rfl
  · exact .inr ⟨Text.digitRun_toDigits n, Text.head?_toDigits_ne hn.ne'⟩

/-- **A whole number is a number of the grammar**, behind a minus sign or none. -/
theorem numberText_toDigits (negative : Bool) (n : ℕ) :
    NumberText (if negative then '-' :: Nat.toDigits 10 n else Nat.toDigits 10 n) := by
  refine ⟨if negative then ['-'] else [], _, [], [], ?_, wholeText_toDigits n, .inl rfl, .inl rfl,
    ?_⟩
  · cases negative <;> simp
  · cases negative <;> simp

theorem isDigit_zeros (n : ℕ) : ∀ c ∈ Layout.zeros n, Text.isDigit c = true := fun c hc => by
  rw [List.eq_of_mem_replicate hc]
  rfl

theorem digitsValue_zeros (n : ℕ) : digitsValue (Layout.zeros n) = 0 := by
  have h := Text.digitsValue_zeros_append n []
  rw [List.append_nil] at h
  exact h

/-- Without an exponent, what is spelled is the digits over a power of ten. -/
theorem spells_of_point {whole fraction : List Char} {x : ℚ} (hwhole : WholeText whole)
    (hfraction : FractionText fraction)
    (hx : x = digitsValue (whole ++ fraction.tail) * 10 ^ (-(fraction.tail.length : ℤ))) :
    Spells (whole ++ fraction) x :=
  ⟨whole, fraction, [], 0, hwhole, hfraction, .inl rfl, rfl, by simp, by rw [hx, zero_sub]⟩

section Digits

variable {digits : List Char} (hrun : DigitRun digits) (hhead : digits.head? ≠ some '0')

include hrun hhead

/-- Zeros behind the digits. -/
theorem spells_padded (keepsPoint : Bool) (k : ℕ) :
    Spells (digits ++ Layout.zeros k ++ if keepsPoint then ['.', '0'] else [])
      (digitsValue digits * 10 ^ (k : ℤ)) := by
  have hwhole : WholeText (digits ++ Layout.zeros k) := by
    refine .inr ⟨⟨by simp [hrun.1], fun c hc => ?_⟩, ?_⟩
    · exact (List.mem_append.mp hc).elim (hrun.2 c) (isDigit_zeros k c)
    · rwa [List.head?_append_of_ne_nil _ hrun.1]
  have hvalue : digitsValue (digits ++ Layout.zeros k) = digitsValue digits * 10 ^ k := by
    rw [Text.digitsValue_append, digitsValue_zeros, Layout.zeros, List.length_replicate,
      Nat.add_zero]
  cases keepsPoint
  · refine spells_of_point hwhole (.inl rfl) ?_
    simp [hvalue]
  · refine spells_of_point hwhole (.inr ⟨['0'], Text.digitRun_toDigits 0, rfl⟩) ?_
    have hzero : digitsValue ['0'] = 0 := rfl
    rw [if_pos rfl, List.tail_cons, Text.digitsValue_append, hvalue, hzero]
    simp

/-- A point among the digits. -/
theorem spells_pointed {w : ℕ} (hw : 0 < w) (hw' : w < digits.length) :
    Spells (digits.take w ++ '.' :: digits.drop w)
      (digitsValue digits * 10 ^ ((w : ℤ) - digits.length)) := by
  have htake : WholeText (digits.take w) := by
    refine .inr ⟨⟨?_, fun c hc => hrun.2 c (List.mem_of_mem_take hc)⟩, ?_⟩
    · simpa [hrun.1] using hw.ne'
    · rwa [List.head?_take, if_neg hw.ne']
  have hdrop : FractionText ('.' :: digits.drop w) := by
    refine .inr ⟨_, ⟨?_, fun c hc => hrun.2 c (List.mem_of_mem_drop hc)⟩, rfl⟩
    rw [ne_eq, List.drop_eq_nil_iff, not_le]
    exact hw'
  refine spells_of_point htake hdrop ?_
  rw [List.tail_cons, List.take_append_drop, List.length_drop, Nat.cast_sub hw'.le, neg_sub]

omit hhead in
/-- A point in front of the digits. -/
theorem spells_small (n : ℕ) :
    Spells ('0' :: '.' :: (Layout.zeros n ++ digits))
      (digitsValue digits * 10 ^ (-(n : ℤ) - digits.length)) := by
  have hfraction : FractionText ('.' :: (Layout.zeros n ++ digits)) := by
    refine .inr ⟨_, ⟨by simp [hrun.1], fun c hc => ?_⟩, rfl⟩
    exact (List.mem_append.mp hc).elim (isDigit_zeros n c) (hrun.2 c)
  have hvalue : digitsValue (['0'] ++ (Layout.zeros n ++ digits)) = digitsValue digits :=
    Text.digitsValue_zeros_append (n + 1) digits
  have hwhole : WholeText ['0'] := .inl rfl
  refine spells_of_point hwhole hfraction ?_
  rw [List.tail_cons, hvalue, List.length_append, Layout.zeros, List.length_replicate,
    Nat.cast_add, neg_add, sub_eq_add_neg]

end Digits

/-- One digit before the point, and an exponent. -/
theorem spells_scientific {first : Char} {rest : List Char} (hrun : DigitRun (first :: rest))
    (hhead : first ≠ '0') (lead : ℤ) :
    Spells ((if rest.isEmpty then [first] else first :: '.' :: rest) ++
        'e' :: (if lead < 0 then '-' else '+') :: Nat.toDigits 10 lead.natAbs)
      (digitsValue (first :: rest) * 10 ^ (lead + 1 - (first :: rest).length)) := by
  have hwhole : WholeText [first] :=
    .inr ⟨⟨List.cons_ne_nil _ _, fun c hc => hrun.2 c (by simp_all)⟩, by simpa using hhead⟩
  have hfraction : FractionText (if rest.isEmpty then [] else '.' :: rest) := by
    cases rest with
    | nil => exact .inl rfl
    | cons c rest =>
      exact .inr ⟨_, ⟨List.cons_ne_nil _ _, fun d hd => hrun.2 d (List.mem_cons_of_mem _ hd)⟩, rfl⟩
  have htail : (if rest.isEmpty then [] else '.' :: rest).tail = rest := by cases rest <;> rfl
  obtain ⟨sign, hsign⟩ : ∃ sign, sign = if lead < 0 then '-' else '+' := ⟨_, rfl⟩
  have hexponent : ExponentText ('e' :: sign :: Nat.toDigits 10 lead.natAbs) := by
    refine .inr ⟨'e', [sign], _, .inl rfl, .inr ?_, Text.digitRun_toDigits _, rfl⟩
    rw [hsign]
    split
    · exact .inr rfl
    · exact .inl rfl
  have hlead : Number.exponent? ('e' :: sign :: Nat.toDigits 10 lead.natAbs) = some lead := by
    have hsplit : Number.takeSign (sign :: Nat.toDigits 10 lead.natAbs) =
        (decide (lead < 0), Nat.toDigits 10 lead.natAbs) := by
      rw [hsign]
      split
      · next hneg => simp [Number.takeSign, hneg]
      · next hneg => simp [Number.takeSign, hneg]
    have hall : (Nat.toDigits 10 lead.natAbs).all Text.isDigit = true :=
      List.all_eq_true.mpr (Text.digitRun_toDigits _).2
    have habs : (if lead < 0 then -(lead.natAbs : ℤ) else lead.natAbs) = lead := by split <;> omega
    simp only [Number.exponent?, hsplit, hall, Text.digitsValue_toDigits, decide_eq_true_eq, habs]
    simp
  refine ⟨[first], _, _, lead, hwhole, hfraction, hexponent, hlead, ?_, ?_⟩
  · rw [hsign]
    cases rest <;> simp
  · rw [htail, List.length_cons, Nat.cast_succ]
    congr 2
    ring

/-- **A point does not change what digits are worth.** -/
theorem spells_positionalText (keepsPoint : Bool) {d : Decimal} (hd : d.digits ≠ 0) :
    Spells (Layout.positionalText keepsPoint d) d.value := by
  obtain ⟨n, e⟩ := d
  have hrun := Text.digitRun_toDigits n
  have hhead := Text.head?_toDigits_ne hd
  have hvalue := Text.digitsValue_toDigits n
  unfold Layout.positionalText Layout.digitChars Decimal.value
  dsimp only at hd ⊢
  split
  · next hexp =>
    have h := spells_padded hrun hhead keepsPoint e.toNat
    rwa [hvalue, Int.toNat_of_nonneg hexp] at h
  split
  · next hexp hpoint =>
    have h := spells_pointed (w := ((Nat.toDigits 10 n).length + e).toNat) hrun hhead (by omega)
      (by omega)
    rwa [hvalue, Int.toNat_of_nonneg hpoint.le, add_sub_cancel_left] at h
  · next hpoint =>
    have h := spells_small hrun (-((Nat.toDigits 10 n).length + e)).toNat
    rwa [hvalue, Int.toNat_of_nonneg (by omega), neg_neg, add_sub_cancel_left] at h

/-- **An exponent makes up for the point.** -/
theorem spells_exponentText {d : Decimal} (hd : d.digits ≠ 0) :
    Spells (Layout.exponentText d) d.value := by
  have hrun := Text.digitRun_toDigits d.digits
  have hhead := Text.head?_toDigits_ne hd
  have hvalue := Text.digitsValue_toDigits d.digits
  unfold Layout.exponentText Layout.digitChars Decimal.value
  dsimp only
  split
  · next first rest heq =>
    rw [heq] at hrun hhead hvalue ⊢
    have h := spells_scientific hrun (by simpa using hhead)
      (d.exponent + (first :: rest).length - 1)
    rwa [hvalue, sub_add_cancel, add_sub_cancel_right] at h
  · next heq => exact absurd heq hrun.1

/-! ### Numbers in double precision -/

section Double

variable {m : ℕ} {q : ℤ} (l : Layout) (h : Binary.double.Number m q)

include h

open Shortest in
/-- **A number is spelled by a decimal in its interval**, behind its sign. -/
theorem exists_spells : ∃ cs x, Spells cs x ∧
    (∀ negative, l.text Binary.double (.finite negative m q) =
      String.ofList (if negative then '-' :: cs else cs)) ∧
    if m = 0 then x = 0 else (Interval.around Binary.double m q).Mem q x := by
  by_cases hm : m = 0
  · refine ⟨['0'] ++ if l.keepsPoint then ['.', '0'] else [], 0, ?_, fun negative => ?_,
      by rw [if_pos hm]⟩
    · cases l.keepsPoint
      · exact spells_of_point (.inl rfl) (.inl rfl) (by simp [digitsValue, Text.digitValue])
      · exact spells_of_point (.inl rfl) (.inr ⟨['0'], Text.digitRun_toDigits 0, rfl⟩)
          (by simp [digitsValue, Text.digitValue])
    · rw [Layout.text, if_pos hm]
      cases l.keepsPoint <;> rfl
  · have hmpos := Nat.pos_of_ne_zero hm
    have hunit := Binary.double_unit ▸ h.unit_le
    have hlimit := Binary.double_limit ▸ h.le_limit
    have hmem := h.shortest_mem hmpos le_rfl (by omega) (by omega) l.tie
    obtain ⟨d, hd⟩ : ∃ d, d = Binary.double.shortest l.tie m q := ⟨_, rfl⟩
    rw [← hd] at hmem
    have hdigits : d.digits ≠ 0 := by
      intro hzero
      have hpos : (0 : ℚ) < d.value :=
        lt_of_lt_of_le (by positivity) (Numeral.mem_bounds h hmpos hmem).1
      simp [Decimal.value, hzero] at hpos
    simp only [Layout.text, if_neg hm, ← hd]
    cases l.positional with
    | none => exact ⟨_, _, spells_positionalText _ hdigits, fun _ => rfl, hmem⟩
    | some range =>
      dsimp only
      split
      · exact ⟨_, _, spells_positionalText _ hdigits, fun _ => rfl, hmem⟩
      · exact ⟨_, _, spells_exponentText hdigits, fun _ => rfl, hmem⟩

/-- **The text of a number is read back as that number**, whatever the layout. -/
theorem read?_text (negative : Bool) :
    Number.read? (l.text Binary.double (.finite negative m q)) = some (.finite negative m q) := by
  obtain ⟨cs, x, hspells, htext, hx⟩ := exists_spells l h
  obtain ⟨n, hn, rfl, rfl, hdigits⟩ := hspells.exists_numeral negative
  rw [Number.read?, htext, String.toList_ofList, hn]
  refine congrArg some ?_
  split at hx
  · next hm =>
    rw [Numeral.value_eq_zero hdigits hx, hm, h.eq_unit hm]
  · next hm => exact Numeral.value_eq_of_mem hdigits h (Nat.pos_of_ne_zero hm) hx

/-- **The text of a number is a number of the grammar.** -/
theorem numberText_text (negative : Bool) :
    NumberText (l.text Binary.double (.finite negative m q)).toList := by
  obtain ⟨cs, x, hspells, htext, -⟩ := exists_spells l h
  rw [htext, String.toList_ofList]
  exact hspells.numberText negative

end Double

end Json

end Deposition
