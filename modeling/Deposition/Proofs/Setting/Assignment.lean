import Deposition.Proofs.Number.Reading
import Deposition.Proofs.Text.Trimming
import Deposition.Setting.Assignment

/-!
# What an argument assigns

An argument `NAME=VALUE` is cut at its first equals sign, and blanks of any kind around the two
parts do not count (`Deposition.Assignment.Assigns`). It is refused as malformed exactly if there is
no equals sign or one of the parts is blank (`Deposition.Assignment.Unassigned`); what the value is
plays no part in that, nor do equals signs inside it.

The value of a ratio is read as a double-precision number, which is not cut down to fit a 32-bit
word but refused if it does not (`Deposition.Assignment.Unfit`): every number from 0 to the greatest
word gives its floor, so a whole number gives itself, and the error for every other value says what
was given. The limit itself is a double-precision number, so nothing is lost by comparing there.
-/

namespace Deposition

namespace Binary.Value

/-- Comparing without a sign is comparing the numbers. -/
theorem exceeds_iff {limit m : ℕ} {q : ℤ} :
    exceeds limit m q = true ↔ (limit : ℚ) < m * 2 ^ q := by
  have hpow := zpow_eq_div two_pos q
  rw [Nat.cast_ofNat] at hpow
  have hden : (0 : ℚ) < (2 ^ (-q).toNat : ℕ) := by positivity
  rw [exceeds, decide_eq_true_eq, hpow, ← mul_div_assoc, lt_div_iff₀ hden]
  simp only [Nat.pow_eq]
  exact_mod_cast Iff.rfl

theorem number_false (m : ℕ) (q : ℤ) : number false m q = m * 2 ^ q := by simp [number]

theorem number_neg_iff {negative : Bool} {m : ℕ} {q : ℤ} :
    number negative m q < 0 ↔ negative = true ∧ m ≠ 0 := by
  have hpow : (0 : ℚ) < 2 ^ q := by positivity
  cases negative with
  | false =>
    have hnonneg : 0 ≤ number false m q := by
      rw [number_false]
      positivity
    simp [not_lt.mpr hnonneg]
  | true => simp [number, hpow, Nat.pos_iff_ne_zero]

end Binary.Value

namespace Assignment

open Text (Blanks Bare)
open Binary.Value (number)

/-! ### The two parts -/

/-- **An argument that assigns nothing**: it has no equals sign, or nothing but blanks before the
first one or behind it. -/
def Unassigned (text : String) : Prop :=
  '=' ∉ text.toList ∨ ∃ before after, '=' ∉ before ∧ text.toList = before ++ '=' :: after ∧
    (Blanks before ∨ Blanks after)

/-- **An argument that assigns a value to a key**, with any blanks around the two. The first equals
sign is the one between them, so the key has none. -/
structure Assigns (text key value : String) : Prop where
  /-- There is a key. -/
  key_ne : key ≠ ""
  /-- The key has no blanks around it. -/
  key_bare : Bare key.toList
  /-- The key ends before the first equals sign. -/
  key_unmarked : '=' ∉ key.toList
  /-- There is a value. -/
  value_ne : value ≠ ""
  /-- The value has no blanks around it. -/
  value_bare : Bare value.toList
  /-- They are what the argument is made of. -/
  parts : ∃ b₁ b₂ b₃ b₄, Blanks b₁ ∧ Blanks b₂ ∧ Blanks b₃ ∧ Blanks b₄ ∧
    text.toList = (b₁ ++ key.toList ++ b₂) ++ '=' :: (b₃ ++ value.toList ++ b₄)

theorem notMem_blanks {cs : List Char} (h : Blanks cs) : '=' ∉ cs := by
  intro hmem
  have hblank := h '=' hmem
  revert hblank
  decide

/-- What is left of a part is the part without the blanks around it. -/
theorem exists_blanks (s : String) : ∃ before after, Blanks before ∧ Blanks after ∧
    s.toList = before ++ (Text.trim s).toList ++ after :=
  (Text.trim_eq_iff (Text.bare_trim s)).mp rfl

variable {text key value : String}

/-- **The key and the value that are found** are the ones that are assigned. -/
theorem split_eq_ok_iff : split text = .ok (key, value) ↔ Assigns text key value := by
  constructor
  · intro h
    unfold split at h
    split at h
    · next k v hcut =>
      obtain ⟨hk, htext⟩ := Text.cutAt?_eq_some_iff.mp hcut
      dsimp only at h
      split at h
      · cases h
      · next hne =>
        obtain ⟨rfl, rfl⟩ := Prod.mk.inj (Except.ok.inj h)
        rw [Bool.or_eq_true, not_or, String.isEmpty_iff, String.isEmpty_iff] at hne
        obtain ⟨b₁, b₂, hb₁, hb₂, hkey⟩ := exists_blanks k
        obtain ⟨b₃, b₄, hb₃, hb₄, hvalue⟩ := exists_blanks v
        refine ⟨hne.1, Text.bare_trim k, ?_, hne.2, Text.bare_trim v, b₁, b₂, b₃, b₄, hb₁, hb₂, hb₃,
          hb₄, ?_⟩
        · intro hmem
          apply hk
          rw [hkey]
          exact List.mem_append_left _ (List.mem_append_right _ hmem)
        · rw [← hkey, ← hvalue, htext]
    · cases h
  · rintro ⟨hkey, hkeyBare, hmark, hvalue, hvalueBare, b₁, b₂, b₃, b₄, hb₁, hb₂, hb₃, hb₄, htext⟩
    have hbefore : '=' ∉ b₁ ++ key.toList ++ b₂ := by
      simp only [List.mem_append, not_or]
      exact ⟨⟨notMem_blanks hb₁, hmark⟩, notMem_blanks hb₂⟩
    have hcut := Text.cutAt?_of_toList_eq hbefore htext
    have htrimKey : Text.trim (String.ofList (b₁ ++ key.toList ++ b₂)) = key :=
      (Text.trim_eq_iff hkeyBare).mpr ⟨b₁, b₂, hb₁, hb₂, String.toList_ofList⟩
    have htrimValue : Text.trim (String.ofList (b₃ ++ value.toList ++ b₄)) = value :=
      (Text.trim_eq_iff hvalueBare).mpr ⟨b₃, b₄, hb₃, hb₄, String.toList_ofList⟩
    have hne : (key.isEmpty || value.isEmpty) = false := by
      rw [← Bool.not_eq_true, Bool.or_eq_true, not_or, String.isEmpty_iff, String.isEmpty_iff]
      exact ⟨hkey, hvalue⟩
    simp only [split, hcut, htrimKey, htrimValue, hne, Bool.false_eq_true, if_false]

/-- If there is an equals sign, it depends on the two parts whether something is assigned. -/
theorem unassigned_iff {before after : String}
    (hcut : Text.cutAt? '=' text = some (before, after)) :
    Unassigned text ↔ Blanks before.toList ∨ Blanks after.toList := by
  obtain ⟨hbefore, htext⟩ := Text.cutAt?_eq_some_iff.mp hcut
  constructor
  · rintro (hnone | ⟨_, _, hbefore', htext', hblanks⟩)
    · rw [htext] at hnone
      exact absurd (List.mem_append_right _ List.mem_cons_self) hnone
    · -- there is one first equals sign, so these are the same parts
      have hcut' := Text.cutAt?_of_toList_eq hbefore' htext'
      obtain ⟨rfl, rfl⟩ := Prod.mk.inj (Option.some.inj (hcut.symm.trans hcut'))
      rwa [String.toList_ofList, String.toList_ofList]
  · intro hblanks
    exact .inr ⟨before.toList, after.toList, hbefore, htext, hblanks⟩

/-- **What is malformed** assigns nothing, and the error says what it was. -/
theorem split_eq_error_iff {e : ConfigurationError} :
    split text = .error e ↔ e = .malformedAssignment text ∧ Unassigned text := by
  unfold split
  split
  · next k v hcut =>
    have hblank : (Text.trim k).isEmpty || (Text.trim v).isEmpty ↔
        Blanks k.toList ∨ Blanks v.toList := by
      rw [Bool.or_eq_true, String.isEmpty_iff, String.isEmpty_iff, Text.trim_eq_empty_iff,
        Text.trim_eq_empty_iff]
    rw [unassigned_iff hcut, ← hblank]
    dsimp only
    split
    · next hempty => simp [hempty, eq_comm]
    · next hempty => simp [hempty]
  · next hcut =>
    have hnone := Text.cutAt?_eq_none_iff.mp hcut
    constructor
    · rintro h
      exact ⟨(Except.error.inj h).symm, .inl hnone⟩
    · rintro ⟨rfl, -⟩
      rfl

/-! ### Ratios -/

/-- **A value that is no ratio**: no number at all, or none from 0 to the greatest word. -/
inductive Unfit (value : String) : Prop
  /-- It cannot be read. -/
  | unread (h : ¬Number.Literal value.toList)
  /-- It says that it is no number. -/
  | nan (h : Number.read? value = some .nan)
  /-- It is infinite. -/
  | infinite {negative : Bool} (h : Number.read? value = some (.infinite negative))
  /-- It is negative, which a zero with a sign is not. -/
  | negative {negative : Bool} {m : ℕ} {q : ℤ}
    (h : Number.read? value = some (.finite negative m q)) (hlt : number negative m q < 0)
  /-- It is too large. -/
  | above {negative : Bool} {m : ℕ} {q : ℤ}
    (h : Number.read? value = some (.finite negative m q)) (hlt : maxWord < number negative m q)

/-- **A value whose number is in range**, and the whole number in it. -/
def Fits (value : String) (n : ℕ) : Prop :=
  ∃ negative m q, Number.read? value = some (.finite negative m q) ∧ 0 ≤ number negative m q ∧
    number negative m q ≤ maxWord ∧ (n : ℤ) = ⌊number negative m q⌋

/-- The ratio in a number is the number without its fraction, if it is in range. -/
theorem ratio?_finite {negative : Bool} {m : ℕ} {q : ℤ} {n : ℕ} :
    ratio? (.finite negative m q) = some n ↔ 0 ≤ number negative m q ∧
      number negative m q ≤ maxWord ∧ (n : ℤ) = ⌊number negative m q⌋ := by
  have hsigned : (negative && m != 0) = true ↔ number negative m q < 0 := by
    rw [Binary.Value.number_neg_iff, Bool.and_eq_true, bne_iff_ne]
  simp only [ratio?, Option.ite_none_left_eq_some, Option.some.injEq, Bool.or_eq_true, hsigned,
    Binary.Value.exceeds_iff, not_or, not_lt, and_assoc]
  refine and_congr_right fun hnonneg => ?_
  -- what is not negative is what it is without its sign
  have hsame : number negative m q = m * 2 ^ q := by
    rw [← not_lt, Binary.Value.number_neg_iff, not_and_or, Bool.not_eq_true, not_not] at hnonneg
    rcases hnonneg with rfl | rfl
    · exact Binary.Value.number_false m q
    · simp [number]
  rw [hsame, ← Binary.Value.truncate_eq, Nat.cast_inj, eq_comm (a := n)]

theorem ratio?_eq_some_iff {n : ℕ} :
    (Number.read? value).bind ratio? = some n ↔ Fits value n := by
  rw [Option.bind_eq_some_iff]
  constructor
  · rintro ⟨v, hv, hratio⟩
    cases v with
    | nan => cases hratio
    | infinite negative => cases hratio
    | finite negative m q => exact ⟨negative, m, q, hv, ratio?_finite.mp hratio⟩
  · rintro ⟨negative, m, q, hv, hrange⟩
    exact ⟨_, hv, ratio?_finite.mpr hrange⟩

/-- **A value that is no ratio is one that does not fit**, and there is no third case. -/
theorem ratio?_eq_none_iff : (Number.read? value).bind ratio? = none ↔ Unfit value := by
  constructor
  · intro hnone
    cases hread : Number.read? value with
    | none => exact .unread (Number.read?_eq_none_iff.mp hread)
    | some v =>
      cases v with
      | nan => exact .nan hread
      | infinite negative => exact .infinite hread
      | finite negative m q =>
        by_contra hfit
        have hnonneg : 0 ≤ number negative m q := not_lt.mp fun hlt => hfit (.negative hread hlt)
        have hle : number negative m q ≤ maxWord := not_lt.mp fun hlt => hfit (.above hread hlt)
        have hfloor : ((⌊number negative m q⌋.toNat : ℕ) : ℤ) = ⌊number negative m q⌋ :=
          Int.toNat_of_nonneg (Int.floor_nonneg.mpr hnonneg)
        have hsome := ratio?_finite.mpr ⟨hnonneg, hle, hfloor⟩
        rw [hread, Option.bind_some, hsome] at hnone
        cases hnone
  · intro hunfit
    by_contra hsome
    obtain ⟨n, hn⟩ := Option.ne_none_iff_exists'.mp hsome
    obtain ⟨negative, m, q, hread, hnonneg, hle, -⟩ := ratio?_eq_some_iff.mp hn
    cases hunfit with
    | unread h =>
      rw [Number.read?_eq_none_iff.mpr h] at hread
      cases hread
    | nan h =>
      rw [h] at hread
      cases hread
    | infinite h =>
      rw [h] at hread
      cases hread
    | negative h hlt =>
      rw [h] at hread
      cases hread
      exact absurd hlt (not_lt.mpr hnonneg)
    | above h hlt =>
      rw [h] at hread
      cases hread
      exact absurd hlt (not_lt.mpr hle)

/-- A whole number fits if a word holds it. -/
theorem fits_of_numeralOf {n : ℕ} (hvalue : Text.NumeralOf n value.toList) (hn : n ≤ maxWord) :
    Fits value n := by
  have hbits : n < 2 ^ 53 := lt_of_le_of_lt hn (by decide)
  obtain ⟨m, q, hread, hsame⟩ := Number.read?_of_numeralOf hvalue hbits
  refine ⟨false, m, q, hread, ?_⟩
  rw [Binary.Value.number_false, hsame]
  refine ⟨Nat.cast_nonneg n, by exact_mod_cast hn, ?_⟩
  rw [Int.floor_natCast]

/-! ### Arguments -/

/-- **What is read of an argument that assigns** has its key: with a value behind it, or in the
error that says which value could not be read. -/
def Keyed {α : Type} (key value : String) (outcome : Except ConfigurationError (String × α)) :
    Prop :=
  (∃ a, outcome = .ok (key, a)) ∨ outcome = .error (.invalidNumber key value)

theorem readRatio_of_assigns (h : Assigns text key value) : readRatio text =
    match (Number.read? value).bind ratio? with
    | some ratio => .ok (key, ratio)
    | none => .error (.invalidNumber key value) := by
  rw [readRatio, split_eq_ok_iff.mpr h]
  rfl

theorem readSetting_of_assigns (h : Assigns text key value) : readSetting text =
    match (Number.read? value).filter Binary.Value.isFinite with
    | some x => .ok (key, Binary.toFloat x)
    | none => .error (.invalidNumber key value) := by
  rw [readSetting, split_eq_ok_iff.mpr h]
  rfl

theorem keyed_readRatio (h : Assigns text key value) : Keyed key value (readRatio text) := by
  rw [readRatio_of_assigns h]
  split
  · exact .inl ⟨_, rfl⟩
  · exact .inr rfl

theorem keyed_readSetting (h : Assigns text key value) : Keyed key value (readSetting text) := by
  rw [readSetting_of_assigns h]
  split
  · exact .inl ⟨_, rfl⟩
  · exact .inr rfl

theorem Keyed.ne_malformed {α : Type} {outcome : Except ConfigurationError (String × α)}
    (h : Keyed key value outcome) (t : String) : outcome ≠ .error (.malformedAssignment t) := by
  rcases h with ⟨a, rfl⟩ | rfl <;> simp

/-- An argument assigns something, or it is malformed. -/
theorem exists_assigns_of_not (h : ¬Unassigned text) : ∃ key value, Assigns text key value := by
  cases hsplit : split text with
  | error e => exact absurd (split_eq_error_iff.mp hsplit).2 h
  | ok parts =>
    obtain ⟨key, value⟩ := parts
    exact ⟨key, value, split_eq_ok_iff.mp hsplit⟩

/-- What is malformed is reported by either reader as it was given. -/
theorem error_of_unassigned (h : Unassigned text) :
    readRatio text = .error (.malformedAssignment text) ∧
      readSetting text = .error (.malformedAssignment text) := by
  have hsplit := split_eq_error_iff.mpr ⟨rfl, h⟩
  rw [readRatio, readSetting, hsplit]
  exact ⟨rfl, rfl⟩

/-- A reader that reports what is malformed and gives everything else its key reports nothing else
as malformed. -/
theorem malformed_iff {α : Type} {outcome : Except ConfigurationError (String × α)} {t : String}
    (hbad : Unassigned text → outcome = .error (.malformedAssignment text))
    (hgood : ∀ key value, Assigns text key value → Keyed key value outcome) :
    outcome = .error (.malformedAssignment t) ↔ t = text ∧ Unassigned text := by
  constructor
  · intro houtcome
    by_cases h : Unassigned text
    · rw [hbad h] at houtcome
      exact ⟨(ConfigurationError.malformedAssignment.inj (Except.error.inj houtcome)).symm, h⟩
    · obtain ⟨key, value, hassigns⟩ := exists_assigns_of_not h
      exact absurd houtcome ((hgood key value hassigns).ne_malformed t)
  · rintro ⟨rfl, h⟩
    exact hbad h

/-- **Arguments are read without wrapping and without guessing.** Either reader reports an argument
as malformed, with its whole text, exactly if it assigns nothing, and gives every other one the key
that it assigns to. A ratio that is a whole number in decimal, up to the greatest 32-bit word, is
read as that number, and the ratio that is read is always the floor of a number that was in range.
Every value that is no number, infinite, negative or too large is reported with the key and the
value, and no other value is. -/
theorem arguments_read_exactly :
    (∀ text t,
      (readRatio text = .error (.malformedAssignment t) ↔ t = text ∧ Unassigned text) ∧
      (readSetting text = .error (.malformedAssignment t) ↔ t = text ∧ Unassigned text)) ∧
    (∀ text, ¬Unassigned text → ∃ key value, Assigns text key value ∧
      Keyed key value (readRatio text) ∧ Keyed key value (readSetting text)) ∧
    ∀ text key value, Assigns text key value →
      (∀ n : UInt32, Text.NumeralOf n.toNat value.toList →
        readRatio text = .ok (key, n.toNat)) ∧
      (readRatio text = .error (.invalidNumber key value) ↔ Unfit value) ∧
      ∀ name n, readRatio text = .ok (name, n) ↔ name = key ∧ Fits value n := by
  refine ⟨fun text t => ⟨?_, ?_⟩, fun text hassigned => ?_, fun text key value hassigns => ?_⟩
  · exact malformed_iff (fun h => (error_of_unassigned h).1) fun _ _ h => keyed_readRatio h
  · exact malformed_iff (fun h => (error_of_unassigned h).2) fun _ _ h => keyed_readSetting h
  · obtain ⟨key, value, hassigns⟩ := exists_assigns_of_not hassigned
    exact ⟨key, value, hassigns, keyed_readRatio hassigns, keyed_readSetting hassigns⟩
  · rw [readRatio_of_assigns hassigns]
    refine ⟨fun n hn => ?_, ?_, fun name n => ?_⟩
    · have hfits := fits_of_numeralOf hn (Nat.le_of_lt_succ n.toNat_lt)
      rw [ratio?_eq_some_iff.mpr hfits]
    · rw [← ratio?_eq_none_iff]
      cases (Number.read? value).bind ratio? with
      | none => simp
      | some ratio => simp
    · rw [← ratio?_eq_some_iff]
      cases (Number.read? value).bind ratio? with
      | none => simp
      | some ratio =>
        constructor
        · intro h
          obtain ⟨rfl, rfl⟩ := Prod.mk.inj (Except.ok.inj h)
          exact ⟨rfl, rfl⟩
        · rintro ⟨rfl, h⟩
          rw [Option.some.inj h]

/-- The limit of a ratio, with blanks around it that are no spaces; one more than the limit; an
equals sign in the value; and no value at all. -/
theorem arguments_read_exactly_samples :
    readRatio "\tTPD = 4294967295\u00a0" = .ok ("TPD", 4294967295) ∧
      readRatio "TPD=4294967296" = .error (.invalidNumber "TPD" "4294967296") ∧
      readRatio "TPD=1=2" = .error (.invalidNumber "TPD" "1=2") ∧
      Keyed "TPD" "1=2" (readSetting "TPD=1=2") ∧
      readRatio "TPD= " = .error (.malformedAssignment "TPD= ") := by
  have hlimit : Assigns "\tTPD = 4294967295\u00a0" "TPD" "4294967295" :=
    split_eq_ok_iff.mp (by cbv)
  have hover : Assigns "TPD=4294967296" "TPD" "4294967296" := split_eq_ok_iff.mp (by cbv)
  have hmarked : Assigns "TPD=1=2" "TPD" "1=2" := split_eq_ok_iff.mp (by cbv)
  have hassigned : ¬Unassigned "TPD=1=2" := by
    intro h
    have herror := split_eq_error_iff.mpr ⟨rfl, h⟩
    rw [split_eq_ok_iff.mpr hmarked] at herror
    cases herror
  have hblank : Blanks [' '] := by
    intro c hc
    rw [List.mem_singleton.mp hc]
    rfl
  have hempty : Unassigned "TPD= " := .inr ⟨['T', 'P', 'D'], [' '], by decide, rfl, .inr hblank⟩
  have habove : Unfit "4294967296" := by
    obtain ⟨m, q, hread, hvalue⟩ := @Number.read?_of_numeralOf 4294967296 "4294967296"
      ⟨[], 0, .inl rfl, rfl⟩ (by decide)
    refine .above hread ?_
    rw [Binary.Value.number_false, hvalue]
    norm_num [maxWord]
  have hunread : Unfit "1=2" := .unread (Number.read?_eq_none_iff.mp rfl)
  obtain ⟨hmalformed, hkeyed, hread⟩ := arguments_read_exactly
  refine ⟨(hread _ _ _ hlimit).1 4294967295 ⟨[], 0, .inl rfl, rfl⟩,
    (hread _ _ _ hover).2.1.mpr habove, (hread _ _ _ hmarked).2.1.mpr hunread, ?_,
    (hmalformed _ _).1.mpr ⟨rfl, hempty⟩⟩
  obtain ⟨key, value, hassigns, -, hsetting⟩ := hkeyed "TPD=1=2" hassigned
  have hsame := (split_eq_ok_iff.mpr hassigns).symm.trans (split_eq_ok_iff.mpr hmarked)
  obtain ⟨rfl, rfl⟩ := Prod.mk.inj (Except.ok.inj hsame)
  exact hsetting

end Assignment

end Deposition
