import Deposition.CommandLine.Program
import Deposition.Proofs.Configuration.Submission
import Mathlib.Data.List.Duplicate

/-!
# A setting named like the mixture

The settings of a configuration are a table, in which no key is there twice. The mixture is no entry
of that table; it is written in front of it, into the same object. So one name is left that can be
there twice, and nothing between the command line and the text keeps it from being given: a setting
is accepted by the form of its argument, whatever its name is.

This file says what follows. The key of the mixture is there twice exactly if a setting of that name
was accepted, no other key ever is, and then a reader that keeps the last value of a key has a
number for the mixture (`Deposition.Configuration.duplicate_iff_accepted`).
-/

namespace Deposition

namespace Configuration

variable {c base : Configuration} {ratios : List (String × Nat)} {values : List (String × Float)}

/-! ### Arguments that are applied -/

theorem Built.apply (h : c.Built) (ratios : List (String × Nat)) (values : List (String × Float)) :
    (c.apply ratios values).Built :=
  List.foldlRecOn values _ (List.foldlRecOn ratios _ h fun _ h r _ => h.setRatio r.1 r.2)
    fun _ h v _ => h.setSetting v.1 v.2

/-- Ratios come first, one after another. -/
theorem apply_cons (c : Configuration) (r : String × Nat) (ratios : List (String × Nat))
    (values : List (String × Float)) :
    c.apply (r :: ratios) values = (c.setRatio r.1 r.2).apply ratios values := rfl

theorem apply_nil_cons (c : Configuration) (v : String × Float) (values : List (String × Float)) :
    c.apply [] (v :: values) = (c.setSetting v.1 v.2).apply [] values := rfl

/-- **The keys after settings are applied** are those before and those of the settings. -/
theorem mem_keys_apply {k : String} :
    k ∈ (c.apply ratios values).keys ↔ k ∈ c.keys ∨ k ∈ values.map Prod.fst := by
  induction ratios generalizing c with
  | cons r ratios ih =>
    rw [apply_cons, ih]
    rfl
  | nil =>
    induction values generalizing c with
    | nil => exact (or_iff_left List.not_mem_nil).symm
    | cons v values ih =>
      rw [apply_nil_cons, ih, List.map_cons, List.mem_cons, ← or_assoc]
      exact or_congr_left (mem_keys_withSetting.trans or_comm)

/-- What the mixture is put into can be built, and has no setting but the velocity. -/
theorem built_of_foundation {catalog : Except Failure Catalog}
    (h : Program.foundation catalog ratios = .ok base) :
    base.Built ∧ base.keys = [depositionVelocity.key] := by
  unfold Program.foundation at h
  split at h
  · cases h
    exact ⟨.initial, rfl⟩
  · next catalog =>
    cases hrequire : Program.requireAll catalog ratios with
    | error => rw [hrequire] at h; cases h
    | ok =>
      rw [hrequire] at h
      cases h
      exact ⟨.ofCatalog catalog, rfl⟩

/-- The settings that are accepted, by their names. -/
theorem mem_map_fst_of_readSetting {texts : List String} {k : String}
    (h : texts.mapM Assignment.readSetting = .ok values) :
    k ∈ values.map Prod.fst ↔ ∃ text ∈ texts, ∃ x, Assignment.readSetting text = .ok (k, x) := by
  induction texts generalizing values with
  | nil =>
    cases h
    simp
  | cons text texts ih =>
    rw [List.mapM_cons] at h
    cases hread : Assignment.readSetting text with
    | error => rw [hread] at h; cases h
    | ok v =>
      cases hrest : texts.mapM Assignment.readSetting with
      | error => rw [hread, hrest] at h; cases h
      | ok rest =>
        rw [hread, hrest] at h
        cases h
        rw [List.map_cons, List.mem_cons, ih hrest, List.exists_mem_cons_iff, hread]
        refine or_congr_left ⟨?_, ?_⟩
        · rintro rfl
          exact ⟨v.2, rfl⟩
        · rintro ⟨x, hx⟩
          cases hx
          rfl

/-! ### What is read of the mixture -/

/-- No setting is sent as a list. -/
theorem wireValue_ne_array (x : Float) (items : List Json) : wireValue x ≠ .array items := by
  by_cases h : x.isFinite = true
  · obtain ⟨literal, hliteral, -⟩ := exists_carries h
    rw [hliteral]
    exact Json.noConfusion
  · rw [wireValue_eq_null h]
    exact Json.noConfusion

/-- The value of a key, for a reader that keeps the last one. -/
def lastValue? (key : String) (fields : List (String × Json)) : Option Json :=
  fields.reverse.lookup key

/-- What comes first is seen only if nothing else has the key. -/
theorem lastValue?_cons {key : String} {value : Json} {fields : List (String × Json)} :
    lastValue? key ((key, value) :: fields) = some ((lastValue? key fields).getD value) := by
  rw [lastValue?, List.reverse_cons, List.lookup_append, List.lookup_cons_self, lastValue?]
  cases fields.reverse.lookup key <;> rfl

theorem lastValue?_eq_none_iff {key : String} {fields : List (String × Json)} :
    lastValue? key fields = none ↔ key ∉ fields.map Prod.fst := by
  rw [lastValue?, List.lookup_eq_none_iff, List.mem_map, not_exists]
  simp only [List.mem_reverse, bne_iff_ne, ne_eq, not_and, @eq_comm _ key]

theorem mem_of_lastValue?_eq_some {key : String} {value : Json} {fields : List (String × Json)}
    (h : lastValue? key fields = some value) : (key, value) ∈ fields := by
  obtain ⟨before, behind, heq, -⟩ := List.lookup_eq_some_iff.mp h
  rw [← List.mem_reverse, heq]
  simp

/-- **A setting of the mixture's name is the only thing that is there twice.** Whatever the catalog
is, and whatever ratios and settings are accepted: the text is an object in which a key is there
twice exactly if it is the mixture's and a setting of that name was accepted; and a reader that
keeps the last value of a key sees the mixture exactly if no such setting was. -/
theorem duplicate_iff_accepted {catalog : Except Failure Catalog} {texts : List String}
    (hbase : Program.foundation catalog ratios = .ok base)
    (hvalues : texts.mapM Assignment.readSetting = .ok values) :
    ∃ fields, Json.read? (base.apply ratios values).submissionText = some (.record fields) ∧
      (∀ key, List.Duplicate key (fields.map Prod.fst) ↔ key = "mixture" ∧
        ∃ text ∈ texts, ∃ x, Assignment.readSetting text = .ok ("mixture", x)) ∧
      (lastValue? "mixture" fields =
          some (.array ((base.apply ratios values).mixture.map ingredientJson)) ↔
        ¬∃ text ∈ texts, ∃ x, Assignment.readSetting text = .ok ("mixture", x)) := by
  obtain ⟨hbase, hkeys⟩ := built_of_foundation hbase
  have hbuilt := hbase.apply ratios values
  have haccepted : (∃ text ∈ texts, ∃ x, Assignment.readSetting text = .ok ("mixture", x)) ↔
      "mixture" ∈ (base.apply ratios values).keys := by
    rw [mem_keys_apply, hkeys, mem_map_fst_of_readSetting hvalues]
    exact (or_iff_right (by decide)).symm
  rw [haccepted]
  generalize base.apply ratios values = c at hbuilt ⊢
  have hnames : (c.settings.map fun s => (s.key, wireValue s.value)).map Prod.fst = c.keys := by
    rw [List.map_map]
    rfl
  refine ⟨_, c.proper_submission.read?_compact.trans (congrArg some c.submission_eq), ?_, ?_⟩
  · intro key
    have honce := List.nodup_iff_forall_not_duplicate.mp hbuilt.keys_nodup key
    rw [List.map_cons, hnames, List.duplicate_cons_iff, or_iff_left honce, eq_comm]
    exact and_congr_right fun hkey => by rw [hkey]
  · rw [lastValue?_cons, Option.some.injEq, ← hnames, ← lastValue?_eq_none_iff]
    refine ⟨fun hmixture => ?_, fun hnone => by rw [hnone, Option.getD_none]⟩
    by_contra hsome
    obtain ⟨value, hvalue⟩ := Option.ne_none_iff_exists'.mp hsome
    obtain ⟨s, -, hs⟩ := List.mem_map.mp (mem_of_lastValue?_eq_some hvalue)
    rw [hvalue, Option.getD_some, ← (Prod.mk.inj hs).2] at hmixture
    exact wireValue_ne_array _ _ hmixture

/-- A catalog of one component. -/
def oneMolecule : Catalog := ⟨[{ resName := "TPD" }]⟩

theorem duplicate_iff_accepted_temperature :
    ∃ fields, Json.read? ((ofCatalog oneMolecule).apply [("TPD", 1)]
        [("temperature", 300.5)]).submissionText = some (.record fields) ∧
      (∀ key, List.Duplicate key (fields.map Prod.fst) ↔ key = "mixture" ∧
        ∃ text ∈ ["temperature=300.5"], ∃ x, Assignment.readSetting text = .ok ("mixture", x)) ∧
      (lastValue? "mixture" fields = some (.array [ingredientJson ⟨"TPD", 1⟩]) ↔
        ¬∃ text ∈ ["temperature=300.5"], ∃ x, Assignment.readSetting text = .ok ("mixture", x)) :=
  duplicate_iff_accepted (rfl : Program.foundation (.ok oneMolecule) _ = _) (by decide +kernel)

/-- **A mixture that is covered.** The arguments are accepted, the configuration is valid, and a
reader that keeps the last value of a key finds the number 1 where the mixture was. -/
theorem covered_by_setting :
    Assignment.readRatio "TPD=1" = .ok ("TPD", 1) ∧
      Assignment.readSetting "mixture=1" = .ok ("mixture", 1.0) ∧
      Program.foundation (.ok oneMolecule) [("TPD", 1)] = .ok (ofCatalog oneMolecule) ∧
      ∃ c fields, c = (ofCatalog oneMolecule).apply [("TPD", 1)] [("mixture", 1.0)] ∧
        c.validate = .ok () ∧ Json.read? c.submissionText = some (.record fields) ∧
        ¬(fields.map Prod.fst).Nodup ∧ lastValue? "mixture" fields = some (.number "1") := by
  refine ⟨by decide +kernel, by decide +kernel, rfl, _,
    [("mixture", .array [ingredientJson ⟨"TPD", 1⟩]), ("deposition_velocity", .number "0.35"),
      ("mixture", .number "1")], rfl, rfl, ?_, by decide, rfl⟩
  have htext : ((ofCatalog oneMolecule).apply [("TPD", 1)] [("mixture", 1.0)]).submissionText =
      "\x7b\"mixture\":[\x7b\"res_name\":\"TPD\",\"ratio\":1\x7d],\"deposition_velocity\":0.35," ++
        "\"mixture\":1\x7d" := by decide +kernel
  rw [htext]
  cbv

end Configuration

end Deposition
