import Deposition.Proofs.Configuration.Built
import Deposition.Proofs.Json.Compact
import Deposition.Proofs.Number.Order
import Deposition.Proofs.Text.ByteOrder

/-!
# What a submission says

A configuration is submitted as one JSON object, the mixture first and the settings beside it. The
server reads that object, so what counts is not the text but what is read back from it, and this
file says what that is: all of the configuration, and nothing else.

Two things stand between the two. Names are arbitrary text, which the reader has to get through the
escapes (`Deposition.Json.Proper.read?_compact`). And a value is written in one of two ways, as an
integer where it is one and exact, and otherwise by the fewest digits that tell it from its
neighbours; either way the number is the same (`Deposition.Configuration.exists_carries`).
-/

namespace Deposition

namespace Configuration

/-! ### Values -/

/-- **What the literal of a setting has to be**: the digits of the value if it is a whole number
below the limit, and otherwise a number that is read back as the value. -/
structure Carries (literal : String) (x : Float) : Prop where
  /-- A whole number below the limit is written as an integer. -/
  whole : ∀ z : ℤ, Binary.rational x = z → |z| < 2 ^ 53 → literal = toString z
  /-- Any other value is read back. -/
  other : (∀ z : ℤ, Binary.rational x = z → 2 ^ 53 ≤ |z|) →
    (Number.read? literal).map Binary.toFloat = some x

/-- A finite number is a whole one if its magnitude is one. -/
theorem number_eq_intCast_iff {negative : Bool} {m : ℕ} {q z : ℤ} :
    Binary.Value.number negative m q = z ↔ (m : ℚ) * 2 ^ q = (if negative then -z else z : ℤ) := by
  cases negative <;> simp [Binary.Value.number, neg_eq_iff_eq_neg]

/-- **A value is written** in a way that carries it. -/
theorem exists_carries {x : Float} (h : x.isFinite = true) :
    ∃ literal, wireValue x = .number literal ∧ Json.Proper (.number literal) ∧
      Carries literal x := by
  obtain ⟨negative, m, q, hvalue⟩ := Binary.exists_of_isFinite (Binary.isFinite_eq x ▸ h)
  have hrational := Binary.rational_eq hvalue
  obtain ⟨whole, hwhole⟩ : ∃ whole, Binary.Value.truncate m q = whole := ⟨_, rfl⟩
  obtain ⟨integer, hinteger⟩ : ∃ z : ℤ, z = if negative then -(whole : ℤ) else whole := ⟨_, rfl⟩
  have habs : |integer| = whole := by
    rw [hinteger]
    split <;> simp
  have hwire : wireValue x =
      if (m : ℚ) * 2 ^ q = whole ∧ whole < 2 ^ 53 then .integer integer else .double x := by
    simp only [wireValue, hvalue, Bool.and_eq_true, Binary.Value.isWhole_iff, decide_eq_true_eq,
      hwhole, hinteger, wholeLimit]
    norm_num
  -- a whole number can be no other than the one that is computed
  have heq {z : ℤ} (hz : Binary.rational x = z) : (m : ℚ) * 2 ^ q = whole ∧ z = integer := by
    rw [hrational, number_eq_intCast_iff] at hz
    have htruncate := Binary.Value.truncate_eq m q
    rw [hz, hwhole, Int.floor_intCast] at htruncate
    refine ⟨by rw [hz, ← htruncate, Int.cast_natCast], ?_⟩
    rw [hinteger, htruncate]
    split <;> simp
  by_cases hsmall : (m : ℚ) * 2 ^ q = whole ∧ whole < 2 ^ 53
  · rw [if_pos hsmall, Json.integer_eq] at hwire
    refine ⟨_, hwire, Json.integer_eq integer ▸ .integer integer, fun z hz _ => by rw [(heq hz).2],
      fun hlarge => ?_⟩
    have hbound := hlarge integer <| by
      rw [hrational, number_eq_intCast_iff, hsmall.1, hinteger]
      split <;> simp
    rw [habs] at hbound
    exact absurd hsmall.2 (by exact_mod_cast hbound.not_gt)
  · rw [if_neg hsmall, Json.double, hvalue] at hwire
    have hnumber := Binary.Format.Number.of_decode (by decide) hvalue
    refine ⟨_, hwire, .number (Json.numberText_text _ hnumber _), fun z hz hbound => ?_,
      fun _ => ?_⟩
    · obtain ⟨hm, rfl⟩ := heq hz
      rw [habs] at hbound
      exact absurd ⟨hm, by exact_mod_cast hbound⟩ hsmall
    · rw [Json.read?_text _ hnumber, Option.map_some, ← hvalue, Binary.toFloat_ofFloat h]

/-! ### The whole submission -/

/-- A component as it is submitted. -/
def ingredientJson (i : Ingredient) : Json :=
  .record [("res_name", .string (some i.resName)), ("ratio", .number (toString i.ratio))]

/-- **What a submission says of a setting.** -/
def Says (s : Setting) (field : String × Json) : Prop :=
  field.1 = s.key ∧ ∃ literal, field.2 = .number literal ∧ Carries literal s.value

variable {c : Configuration}

theorem submission_eq (c : Configuration) : c.submission =
    .record (("mixture", .array (c.mixture.map ingredientJson)) ::
      c.settings.map fun s => (s.key, wireValue s.value)) := by
  have hratio (n : ℕ) : Json.natural n = .number (toString n) := by
    rw [Json.natural, ← Nat.repr_eq_ofList_toDigits]
    rfl
  simp only [submission, Json.text, hratio]
  rfl

/-- What is no number goes out as nothing. -/
theorem wireValue_eq_null {x : Float} (h : ¬x.isFinite = true) : wireValue x = .null := by
  rw [Binary.isFinite_eq] at h
  unfold wireValue
  split
  · next hvalue => exact absurd (hvalue ▸ rfl) h
  · rfl

theorem proper_wireValue (x : Float) : Json.Proper (wireValue x) := by
  by_cases h : x.isFinite = true
  · obtain ⟨literal, hliteral, hproper, -⟩ := exists_carries h
    exact hliteral ▸ hproper
  · exact wireValue_eq_null h ▸ .null

/-- **A submission can be written**, and so it is read back. -/
theorem proper_submission (c : Configuration) : Json.Proper c.submission := by
  refine .record (List.forall_mem_cons.mpr
    ⟨.array ?_, List.forall_mem_map.mpr fun s _ => proper_wireValue s.value⟩)
  refine List.forall_mem_map.mpr fun i _ => .record ?_
  exact List.forall_mem_cons.mpr ⟨.text _, List.forall_mem_singleton.mpr (.natural _)⟩

/-- **A submission says exactly what is configured.** Whatever names there are, if the values are
numbers and none is named like the mixture, then the text is one object: the mixture in its order,
once, and one number for each setting, in the order of the bytes of the keys. -/
theorem Built.submission_exact (h : c.Built) (hfinite : ∀ s ∈ c.settings, s.value.isFinite = true)
    (hmixture : "mixture" ∉ c.keys) :
    ∃ fields, Json.read? c.submissionText =
        some (.record (("mixture", .array (c.mixture.map ingredientJson)) :: fields)) ∧
      List.Forall₂ Says c.settings fields ∧
      "mixture" ∉ fields.map Prod.fst ∧
      fields.Pairwise fun a b => Utf8.encode a.1 < Utf8.encode b.1 := by
  have hkeys : (c.settings.map fun s => (s.key, wireValue s.value)).map Prod.fst = c.keys := by
    rw [List.map_map]
    rfl
  refine ⟨_, c.proper_submission.read?_compact.trans (congrArg some c.submission_eq), ?_,
    by rwa [hkeys], ?_⟩
  · rw [List.forall₂_map_right_iff, List.forall₂_same]
    intro s hs
    obtain ⟨literal, hliteral, -, hcarries⟩ := exists_carries (hfinite s hs)
    exact ⟨rfl, literal, hliteral, hcarries⟩
  · refine List.pairwise_map.mpr ((List.pairwise_map.mp h.keys_pairwise).imp fun hlt => ?_)
    exact Utf8.lt_iff_encode_lt.mp hlt

/-- Names that need escapes, a zero with a sign, and a whole number at the limit. -/
def unusual : Configuration :=
  ((initial.setRatio "\"é\n" 3).setSetting "zinc\\" (-0.0)).setSetting "Ω" 9007199254740992

theorem Built.submission_exact_unusual :
    unusual.submissionText =
        "\x7b\"mixture\":[\x7b\"res_name\":\"\\\"é\\n\",\"ratio\":3\x7d]," ++
          "\"deposition_velocity\":0.35,\"zinc\\\\\":0,\"Ω\":9007199254740992.0\x7d" ∧
      ∃ fields, Json.read? unusual.submissionText =
          some (.record (("mixture", .array [ingredientJson ⟨"\"é\n", 3⟩]) :: fields)) ∧
        List.Forall₂ Says unusual.settings fields ∧
        "mixture" ∉ fields.map Prod.fst ∧
        fields.Pairwise fun a b => Utf8.encode a.1 < Utf8.encode b.1 :=
  ⟨by decide +kernel,
    Built.submission_exact (((Built.initial.setRatio _ _).setSetting _ _).setSetting _ _)
      (by decide +kernel) (by decide +kernel)⟩

end Configuration

end Deposition
