import Deposition.Proofs.Json.Grammar
import Deposition.Proofs.Number.Numeral
import Deposition.Proofs.Setting.Whole

/-!
# The texts that are numbers

What a user types is a number if it is a sign or none, digits with a point among them or without,
and an exponent or none (`Deposition.Number.NumeralText`); or a sign or none and one of the words
for infinity and for no number (`Deposition.Number.WordText`). The reader accepts these texts and no
others (`Deposition.Number.read?_eq_some_iff`), and what it finds in a numeral is the nearest
double-precision number.

A whole number with few enough bits is a double-precision number, so it is read as itself whatever
zeros and whatever sign it is typed with (`Deposition.Number.read?_of_numeralOf`).
-/

namespace Deposition

open Shortest in
/-- A number is in its own interval. -/
theorem Shortest.Interval.mem_around {m : ℕ} (f : Binary.Format) (q : ℤ) (hm : 0 < m) :
    (around f m q).Mem q (m * 2 ^ q) := by
  have hpos : (0 : ℚ) < 2 ^ q := by positivity
  have hlow : ((around f m q).low : ℚ) / 4 < m := by
    rw [around_low hm]
    split <;> linarith
  have hhigh : (m : ℚ) < ((around f m q).high : ℚ) / 4 := by
    rw [around_high]
    linarith
  have hbelow : ((around f m q).low : ℚ) * 2 ^ (q - 2) < m * 2 ^ q := by
    rw [mul_quarter]
    gcongr
  have habove : (m : ℚ) * 2 ^ q < ((around f m q).high : ℚ) * 2 ^ (q - 2) := by
    rw [mul_quarter]
    gcongr
  exact ⟨hbelow.le, habove.le, fun _ => ⟨hbelow.ne, habove.ne⟩⟩

namespace Number

open Text (DigitRun)

/-! ### Signs -/

/-- **The sign in front of a number**, and whether it is a minus sign. -/
inductive SignText : Bool → List Char → Prop
  /-- There is no sign. -/
  | absent : SignText false []
  /-- A plus sign. -/
  | plus : SignText false ['+']
  /-- A minus sign. -/
  | minus : SignText true ['-']

/-- A text that does not begin with a sign. -/
def Unsigned (cs : List Char) : Prop := ∀ c ∈ cs.head?, c ≠ '+' ∧ c ≠ '-'

theorem unsigned_of_digits {cs : List Char} (h : ∀ c ∈ cs, Text.isDigit c = true) :
    Unsigned cs := by
  intro c hc
  have hdigit := h c (List.mem_of_head? hc)
  constructor <;> rintro rfl <;> cases hdigit

theorem takeSign_of_unsigned {cs : List Char} (h : Unsigned cs) : takeSign cs = (false, cs) := by
  unfold takeSign
  split
  · exact absurd rfl (h '-' rfl).2
  · exact absurd rfl (h '+' rfl).1
  · rfl

/-- **A sign is taken off**, and what is behind it is left. -/
theorem SignText.takeSign_append {negative : Bool} {sign cs : List Char}
    (h : SignText negative sign) (hcs : Unsigned cs) : takeSign (sign ++ cs) = (negative, cs) := by
  cases h with
  | absent => exact takeSign_of_unsigned hcs
  | plus => rfl
  | minus => rfl

/-- Nothing but a sign is taken off. -/
theorem exists_signText {negative : Bool} {cs rest : List Char}
    (h : takeSign cs = (negative, rest)) : ∃ sign, SignText negative sign ∧ cs = sign ++ rest := by
  unfold takeSign at h
  split at h <;> obtain ⟨rfl, rfl⟩ := Prod.mk.inj h
  · exact ⟨['-'], .minus, rfl⟩
  · exact ⟨['+'], .plus, rfl⟩
  · exact ⟨[], .absent, rfl⟩

/-! ### Exponents -/

/-- **The exponent behind the digits**: none, or a mark, a sign and digits. -/
inductive ExponentOf : ℤ → List Char → Prop
  /-- There is no exponent. -/
  | absent : ExponentOf 0 []
  /-- An exponent behind its mark. -/
  | marked {mark : Char} {negative : Bool} {sign ds : List Char} (hmark : mark = 'e' ∨ mark = 'E')
    (hsign : SignText negative sign) (hds : DigitRun ds) :
    ExponentOf (if negative then -(Text.digitsValue ds : ℤ) else Text.digitsValue ds)
      (mark :: (sign ++ ds))

theorem exponent?_eq_some_iff {cs : List Char} {e : ℤ} :
    exponent? cs = some e ↔ ExponentOf e cs := by
  constructor
  · intro h
    unfold exponent? at h
    split at h
    · cases h
      exact .absent
    · next mark rest =>
      rw [Option.ite_none_right_eq_some] at h
      obtain ⟨hmark, h⟩ := h
      have hmark' : mark = 'e' ∨ mark = 'E' := by simpa using hmark
      generalize hsplit : takeSign rest = parts at h
      obtain ⟨negative, ds⟩ := parts
      obtain ⟨sign, hsign, rfl⟩ := exists_signText hsplit
      simp only [Option.ite_none_left_eq_some, Option.some.injEq] at h
      obtain ⟨hdigits, rfl⟩ := h
      have hrun : DigitRun ds := by simpa [DigitRun] using hdigits
      exact .marked hmark' hsign hrun
  · intro h
    cases h with
    | absent => rfl
    | marked hmark hsign hds =>
      have hmark' : ∀ mark : Char, mark = 'e' ∨ mark = 'E' → (mark == 'e' || mark == 'E') = true :=
        by simp
      have hall := List.all_eq_true.mpr hds.2
      have hsplit := hsign.takeSign_append (unsigned_of_digits hds.2)
      simp [exponent?, hmark' _ hmark, hsplit, hds.1, hall]

/-- What begins with the mark of an exponent, or is nothing, goes on neither digits nor a point. -/
theorem ExponentOf.head {e : ℤ} {cs : List Char} (h : ExponentOf e cs) :
    Json.NoDigit cs ∧ ∀ c ∈ cs.head?, c ≠ '.' := by
  cases h with
  | absent => simp [Json.NoDigit]
  | marked hmark _ _ =>
    rcases hmark with rfl | rfl <;> simp [Json.NoDigit] <;> decide

/-! ### Numerals -/

/-- **How a numeral is typed**: a sign or none, digits with a point among them or without – a point
alone is no number – and an exponent or none. -/
def NumeralText (n : Numeral) (cs : List Char) : Prop :=
  ∃ sign point tail, SignText n.negative sign ∧ DigitRun (n.whole ++ n.fraction) ∧
    (point = [] ∧ n.fraction = [] ∨ point = ['.']) ∧ ExponentOf n.exponent tail ∧
    cs = sign ++ (n.whole ++ (point ++ (n.fraction ++ tail)))

/-- The fraction behind the whole part of a number, and what is behind the fraction. -/
def splitFraction : List Char → List Char × List Char
  | '.' :: rest => (rest.takeWhile Text.isDigit, rest.dropWhile Text.isDigit)
  | rest => ([], rest)

theorem numeral?_eq (cs : List Char) : numeral? cs =
    if ((takeSign cs).2.takeWhile Text.isDigit).isEmpty &&
        (splitFraction ((takeSign cs).2.dropWhile Text.isDigit)).1.isEmpty then none
    else (exponent? (splitFraction ((takeSign cs).2.dropWhile Text.isDigit)).2).map fun e =>
      ⟨(takeSign cs).1, (takeSign cs).2.takeWhile Text.isDigit,
        (splitFraction ((takeSign cs).2.dropWhile Text.isDigit)).1, e⟩ := rfl

/-- A fraction is a point and digits, or nothing. -/
theorem splitFraction_eq {rest fraction tail : List Char}
    (h : splitFraction rest = (fraction, tail)) : (∀ c ∈ fraction, Text.isDigit c = true) ∧
      ∃ point, (point = [] ∧ fraction = [] ∨ point = ['.']) ∧
        rest = point ++ (fraction ++ tail) := by
  unfold splitFraction at h
  split at h <;> obtain ⟨rfl, rfl⟩ := Prod.mk.inj h
  · next rest =>
    refine ⟨fun c hc => List.mem_takeWhile_imp hc, ['.'], .inr rfl, ?_⟩
    rw [List.takeWhile_append_dropWhile, List.singleton_append]
  · exact ⟨fun c hc => absurd hc List.not_mem_nil, [], .inl ⟨rfl, rfl⟩, rfl⟩

theorem splitFraction_append {point fraction tail : List Char}
    (hpoint : point = [] ∧ fraction = [] ∨ point = ['.'])
    (hfraction : ∀ c ∈ fraction, Text.isDigit c = true) (htail : Json.NoDigit tail)
    (hpointless : ∀ c ∈ tail.head?, c ≠ '.') :
    splitFraction (point ++ (fraction ++ tail)) = (fraction, tail) := by
  rcases hpoint with ⟨rfl, rfl⟩ | rfl
  · unfold splitFraction
    split
    · next rest heq =>
      have hhead : tail.head? = some '.' := by
        simp only [List.nil_append] at heq
        rw [heq, List.head?_cons]
      exact absurd rfl (hpointless '.' hhead)
    · rfl
  · obtain ⟨htake, hdrop⟩ := Json.span_digits hfraction htail
    rw [List.singleton_append, splitFraction, htake, hdrop]

/-- What is taken for a numeral is typed as one. -/
theorem numeralText_of_numeral? {cs : List Char} {n : Numeral} (h : numeral? cs = some n) :
    NumeralText n cs := by
  rw [numeral?_eq] at h
  generalize hsign : takeSign cs = signed at h
  obtain ⟨negative, rest⟩ := signed
  generalize hsplit : splitFraction (rest.dropWhile Text.isDigit) = parts at h
  obtain ⟨fraction, tail⟩ := parts
  simp only [Option.ite_none_left_eq_some, Option.map_eq_some_iff] at h
  obtain ⟨hne, e, he, rfl⟩ := h
  obtain ⟨sign, hsign', rfl⟩ := exists_signText hsign
  obtain ⟨hfraction, point, hpoint, hrest⟩ := splitFraction_eq hsplit
  have hwhole : ∀ c ∈ rest.takeWhile Text.isDigit, Text.isDigit c = true := fun c hc =>
    List.mem_takeWhile_imp hc
  refine ⟨sign, point, tail, hsign', ⟨?_, ?_⟩, hpoint, exponent?_eq_some_iff.mp he, ?_⟩
  · intro hnil
    obtain ⟨hwholeNil, hfractionNil⟩ := List.append_eq_nil_iff.mp hnil
    exact hne (Bool.and_eq_true_iff.mpr
      ⟨List.isEmpty_iff.mpr hwholeNil, List.isEmpty_iff.mpr hfractionNil⟩)
  · intro c hc
    rcases List.mem_append.mp hc with hc | hc
    · exact hwhole c hc
    · exact hfraction c hc
  · rw [← hrest, List.takeWhile_append_dropWhile]

section Behind

variable {point whole fraction tail : List Char}
  (hpoint : point = [] ∧ fraction = [] ∨ point = ['.'])

include hpoint

/-- Behind the whole part comes a point or what ends the digits. -/
theorem noDigit_point_append (htail : Json.NoDigit tail) :
    Json.NoDigit (point ++ (fraction ++ tail)) := by
  rcases hpoint with ⟨rfl, rfl⟩ | rfl
  · exact htail
  · intro c hc
    obtain rfl : '.' = c := by simpa using hc
    rfl

/-- A number without a sign begins with a digit or a point. -/
theorem unsigned_whole_append (hrun : DigitRun (whole ++ fraction)) :
    Unsigned (whole ++ (point ++ (fraction ++ tail))) := by
  intro c hc
  rw [List.head?_append, Option.mem_def, Option.or_eq_some_iff] at hc
  rcases hc with hc | ⟨hnil, hc⟩
  · exact unsigned_of_digits (fun d hd => hrun.2 d (List.mem_append_left _ hd)) c hc
  · rcases hpoint with ⟨-, hnil'⟩ | rfl
    · exact absurd (List.append_eq_nil_iff.mpr ⟨List.head?_eq_none_iff.mp hnil, hnil'⟩) hrun.1
    · obtain rfl : '.' = c := by simpa using hc
      decide

end Behind

/-- What is typed as a numeral is taken for it. -/
theorem NumeralText.numeral?_eq_some {cs : List Char} {n : Numeral} (h : NumeralText n cs) :
    numeral? cs = some n := by
  obtain ⟨sign, point, tail, hsign, hrun, hpoint, htail, rfl⟩ := h
  obtain ⟨hnoDigit, hnoPoint⟩ := htail.head
  have hwhole : ∀ c ∈ n.whole, Text.isDigit c = true := fun c hc =>
    hrun.2 c (List.mem_append_left _ hc)
  have hfraction : ∀ c ∈ n.fraction, Text.isDigit c = true := fun c hc =>
    hrun.2 c (List.mem_append_right _ hc)
  obtain ⟨htake, hdrop⟩ := Json.span_digits hwhole (noDigit_point_append hpoint hnoDigit)
  have hsome : (n.whole.isEmpty && n.fraction.isEmpty) = false := by
    rw [← Bool.not_eq_true, Bool.and_eq_true, List.isEmpty_iff, List.isEmpty_iff]
    exact fun h => hrun.1 (List.append_eq_nil_iff.mpr h)
  simp only [numeral?_eq, hsign.takeSign_append (unsigned_whole_append hpoint hrun), htake, hdrop,
    splitFraction_append hpoint hfraction hnoDigit hnoPoint, hsome,
    exponent?_eq_some_iff.mpr htail]
  rfl

/-- **The texts that are numerals.** -/
theorem numeral?_eq_some_iff {cs : List Char} {n : Numeral} :
    numeral? cs = some n ↔ NumeralText n cs :=
  ⟨numeralText_of_numeral?, NumeralText.numeral?_eq_some⟩

/-! ### Words -/

/-- **A word for what is no number**, in any mixture of case, behind a sign or none. -/
inductive WordText : Binary.Value → List Char → Prop
  /-- Infinity, in short or in full. -/
  | infinite {negative : Bool} {sign word : List Char} (hsign : SignText negative sign)
    (hword : word.map lower = "inf".toList ∨ word.map lower = "infinity".toList) :
    WordText (.infinite negative) (sign ++ word)
  /-- Not a number; the sign of it is dropped. -/
  | nan {negative : Bool} {sign word : List Char} (hsign : SignText negative sign)
    (hword : word.map lower = "nan".toList) : WordText .nan (sign ++ word)

/-- Signs, points and digits are not the letters that words begin with. -/
theorem lower_ne_of_numeric {c : Char}
    (hc : c = '+' ∨ c = '-' ∨ c = '.' ∨ Text.isDigit c = true) :
    ¬(lower c = 'i' ∨ lower c = 'n') := by
  have hsame : lower c = c := by
    rw [lower, if_neg]
    rcases hc with rfl | rfl | rfl | hdigit
    · decide
    · decide
    · decide
    · simp only [Text.isDigit, Bool.and_eq_true, decide_eq_true_eq] at hdigit ⊢
      omega
  rw [hsame]
  rintro (rfl | rfl) <;> revert hc <;> decide

/-- A word begins with its letter. -/
theorem head_of_lower {word : List Char} (hword : word.map lower = "inf".toList ∨
    word.map lower = "infinity".toList ∨ word.map lower = "nan".toList) :
    ∃ c rest, word = c :: rest ∧ (c ≠ '+' ∧ c ≠ '-') ∧ Text.isDigit c = false ∧ c ≠ '.' := by
  cases word with
  | nil => rcases hword with h | h | h <;> cases h
  | cons c rest =>
    have hlower : lower c = 'i' ∨ lower c = 'n' := by
      rcases hword with h | h | h <;> rw [List.map_cons] at h <;>
        simp only [String.reduceToList, List.cons.injEq] at h <;> simp [h.1]
    refine ⟨c, rest, rfl, ⟨?_, ?_⟩, Bool.eq_false_iff.mpr ?_, ?_⟩
    · exact fun hc => lower_ne_of_numeric (.inl hc) hlower
    · exact fun hc => lower_ne_of_numeric (.inr (.inl hc)) hlower
    · exact fun hc => lower_ne_of_numeric (.inr (.inr (.inr hc))) hlower
    · exact fun hc => lower_ne_of_numeric (.inr (.inr (.inl hc))) hlower

theorem unsigned_of_lower {word : List Char} (hword : word.map lower = "inf".toList ∨
    word.map lower = "infinity".toList ∨ word.map lower = "nan".toList) : Unsigned word := by
  obtain ⟨c, rest, rfl, hsign, -⟩ := head_of_lower hword
  intro d hd
  obtain rfl : c = d := by simpa using hd
  exact hsign

theorem word?_eq_some_iff {cs : List Char} {v : Binary.Value} :
    word? cs = some v ↔ WordText v cs := by
  constructor
  · intro h
    unfold word? at h
    generalize hsplit : takeSign cs = parts at h
    obtain ⟨negative, word⟩ := parts
    obtain ⟨sign, hsign, rfl⟩ := exists_signText hsplit
    simp only [Bool.or_eq_true, beq_iff_eq, String.ofList_eq] at h
    split at h
    · next hword =>
      cases h
      exact .infinite hsign hword
    · split at h
      · next hword =>
        cases h
        exact .nan hsign hword
      · cases h
  · intro h
    cases h with
    | infinite hsign hword =>
      have hunsigned := unsigned_of_lower (hword.elim .inl fun h => .inr (.inl h))
      simp only [word?, hsign.takeSign_append hunsigned, Bool.or_eq_true, beq_iff_eq,
        String.ofList_eq]
      rw [if_pos hword]
    | nan hsign hword =>
      have hunsigned := unsigned_of_lower (.inr (.inr hword))
      simp only [word?, hsign.takeSign_append hunsigned, Bool.or_eq_true, beq_iff_eq,
        String.ofList_eq, hword]
      rfl

/-- **No word is a numeral.** -/
theorem WordText.numeral?_eq_none {cs : List Char} {v : Binary.Value} (h : WordText v cs) :
    numeral? cs = none := by
  obtain ⟨negative, sign, word, hsign, hword, rfl⟩ : ∃ negative sign word,
      SignText negative sign ∧ (word.map lower = "inf".toList ∨
        word.map lower = "infinity".toList ∨ word.map lower = "nan".toList) ∧
      cs = sign ++ word := by
    cases h with
    | infinite hsign hword => exact ⟨_, _, _, hsign, hword.elim .inl fun h => .inr (.inl h), rfl⟩
    | nan hsign hword => exact ⟨_, _, _, hsign, .inr (.inr hword), rfl⟩
  have hunsigned := unsigned_of_lower hword
  obtain ⟨c, rest, rfl, -, hdigit, hpoint⟩ := head_of_lower hword
  have hsplit : splitFraction (c :: rest) = ([], c :: rest) := by
    unfold splitFraction
    split
    · next heq => exact absurd (List.cons.inj heq).1 hpoint
    · rfl
  simp [numeral?_eq, hsign.takeSign_append hunsigned, hdigit, hsplit]

/-! ### Texts -/

/-- **What can be read as a number**: a numeral, or a word for infinity or for no number. -/
def Literal (cs : List Char) : Prop := (∃ n, NumeralText n cs) ∨ ∃ v, WordText v cs

/-- **The texts that are read**, and as what: a numeral as the nearest number, and a word as what it
stands for. -/
theorem read?_eq_some_iff {s : String} {v : Binary.Value} : read? s = some v ↔
    (∃ n, NumeralText n s.toList ∧ v = n.value) ∨ WordText v s.toList := by
  unfold read?
  constructor
  · intro h
    split at h
    · next n hn =>
      cases h
      exact .inl ⟨n, numeral?_eq_some_iff.mp hn, rfl⟩
    · exact .inr (word?_eq_some_iff.mp h)
  · rintro (⟨n, hn, rfl⟩ | hword)
    · rw [numeral?_eq_some_iff.mpr hn]
    · rw [hword.numeral?_eq_none]
      exact word?_eq_some_iff.mpr hword

/-- **Everything else is no number.** -/
theorem read?_eq_none_iff {s : String} : read? s = none ↔ ¬Literal s.toList := by
  constructor
  · rintro hnone (⟨n, hn⟩ | ⟨v, hv⟩)
    · rw [read?_eq_some_iff.mpr (.inl ⟨n, hn, rfl⟩)] at hnone
      cases hnone
    · rw [read?_eq_some_iff.mpr (.inr hv)] at hnone
      cases hnone
  · intro hliteral
    by_contra hsome
    obtain ⟨v, hv⟩ := Option.ne_none_iff_exists'.mp hsome
    rcases read?_eq_some_iff.mp hv with ⟨n, hn, -⟩ | hword
    · exact hliteral (.inl ⟨n, hn⟩)
    · exact hliteral (.inr ⟨v, hword⟩)

/-! ### Whole numbers -/

/-- A whole number is a numeral without a point and without an exponent. -/
theorem numeralText_of_numeralOf {n : ℕ} {cs : List Char} (h : Text.NumeralOf n cs) :
    ∃ ds, NumeralText ⟨false, ds, [], 0⟩ cs ∧ Text.digitsValue ds = n ∧ DigitRun ds := by
  obtain ⟨sign, k, hsign, rfl⟩ := h
  have hrun := Text.digitRun_zeros_append k n
  have hsign' : SignText false sign := by
    rcases hsign with rfl | rfl
    · exact .absent
    · exact .plus
  refine ⟨List.replicate k '0' ++ Nat.toDigits 10 n,
    ⟨sign, [], [], hsign', by simpa using hrun, .inl ⟨rfl, rfl⟩, .absent, by simp⟩, ?_, hrun⟩
  rw [Text.digitsValue_zeros_append, Text.digitsValue_toDigits]

/-- **A whole number is read as itself** if its bits fit, with a plus sign and zeros in front of it
or without. -/
theorem read?_of_numeralOf {n : ℕ} {s : String} (h : Text.NumeralOf n s.toList) (hn : n < 2 ^ 53) :
    ∃ m q, read? s = some (.finite false m q) ∧ (m : ℚ) * 2 ^ q = n := by
  obtain ⟨ds, hnumeral, hvalue, hrun⟩ := numeralText_of_numeralOf h
  have hdigits : ∀ c ∈ ds ++ [], Text.isDigit c = true := by
    rw [List.append_nil]
    exact hrun.2
  have hmagnitude : (⟨false, ds, [], 0⟩ : Numeral).magnitude = n := by
    simp [Numeral.magnitude, hvalue]
  have hread := read?_eq_some_iff.mpr (.inl ⟨_, hnumeral, rfl⟩)
  rcases Nat.eq_zero_or_pos n with rfl | hpos
  · rw [Numeral.value_eq_zero hdigits (by rw [hmagnitude, Nat.cast_zero])] at hread
    exact ⟨0, Binary.double.unit, hread, by simp⟩
  · obtain ⟨k, hnumber, -⟩ := Binary.exists_shifted hpos hn
    have hsame : ((n * 2 ^ k : ℕ) : ℚ) * 2 ^ (-(k : ℤ)) = n := by
      rw [zpow_neg, zpow_natCast, Nat.cast_mul, Nat.cast_pow, Nat.cast_ofNat, mul_assoc,
        mul_inv_cancel₀ (by positivity), mul_one]
    have hshifted : 0 < n * 2 ^ k := by positivity
    have hmem := Shortest.Interval.mem_around Binary.double (-(k : ℤ)) hshifted
    rw [hsame, ← hmagnitude] at hmem
    rw [Numeral.value_eq_of_mem hdigits hnumber hshifted hmem] at hread
    exact ⟨n * 2 ^ k, -k, hread, hsame⟩

end Number

end Deposition
