import Deposition.Proofs.Configuration.Built
import Deposition.Proofs.Configuration.Numbers
import Deposition.Proofs.Configuration.Shares
import Deposition.Proofs.Files.Entries
import Mathlib.Data.List.Chain

/-!
# The name of a job as a file name

The name of a job is put together from parts with underscores between them: one part for each
component that there is anything of, and one for each setting
(`Deposition.Configuration.nameParts`). Names of components are arbitrary text, so a part keeps only
those of their characters that are safe; values of settings are arbitrary numbers, and what is
printed of them is the matter of `Deposition.Proofs.Configuration.Numbers`.

Two things follow for every configuration that can be built. The name has characters of a small
alphabet only, and in no part is there more than one point, so that no two points stand together
anywhere (`Deposition.Configuration.partChars_jobName`). And there is a name at all, because the
velocity is always among the settings. So the files that are named for a job are right below the
directories that are meant for them, whoever chose the names.
-/

namespace Deposition

namespace Configuration

variable {c : Configuration}

/-! ### The parts of a name -/

/-- The part of a component. -/
def componentPart (component : String × Nat) : String :=
  fileSafe component.1 ++ "-" ++ toString component.2

/-- The parts of a name. -/
def nameParts (c : Configuration) : List String :=
  c.components.map componentPart ++ c.settings.map settingPart

theorem jobName_eq (c : Configuration) : c.jobName = String.intercalate "_" c.nameParts := by
  rw [jobName, nameParts, components, present, List.map_map]
  rfl

/-- The characters of a name are those of its parts, with underscores between them. -/
theorem toList_jobName (c : Configuration) :
    c.jobName.toList = ['_'].intercalate (c.nameParts.map String.toList) := by
  rw [jobName_eq, String.toList_intercalate]
  rfl

/-! ### Characters -/

/-- **The characters that a job name may have.** -/
def NameChar (ch : Char) : Prop := ch.isAlphanum = true ∨ ch ∈ ['+', '.', '_', '-']

instance : DecidablePred NameChar := fun _ => inferInstanceAs (Decidable (_ ∨ _))

/-- A text of such characters. -/
def NameText (s : String) : Prop := ∀ ch ∈ s.toList, NameChar ch

instance : DecidablePred NameText := fun s => List.decidableBAll NameChar s.toList

/-- No two points, one behind the other. -/
def Apart (a b : Char) : Prop := a ≠ '.' ∨ b ≠ '.'

/-- What holds of each part of a name: its characters are those of names, and no two points stand
together. -/
structure PartChars (cs : List Char) : Prop where
  /-- The characters are those of names. -/
  nameChar : ∀ ch ∈ cs, NameChar ch
  /-- Points are apart. -/
  apart : cs.IsChain Apart

theorem isFileSafe_iff {ch : Char} : isFileSafe ch = true ↔ ch.isAlphanum = true ∨ ch = '+' := by
  -- a character is a word, and the two ways to look at it compare words and numbers
  have hword {v w : UInt32} : decide (v ≤ w) = true ↔ v.toNat ≤ w.toNat :=
    decide_eq_true_iff.trans UInt32.le_iff_toNat_le
  have hupper : ch.isUpper = true ↔ 65 ≤ ch.toNat ∧ ch.toNat ≤ 90 :=
    decide_eq_true_iff.trans (and_congr UInt32.le_iff_toNat_le UInt32.le_iff_toNat_le)
  have hlower : ch.isLower = true ↔ 97 ≤ ch.toNat ∧ ch.toNat ≤ 122 :=
    Bool.and_eq_true_iff.trans (and_congr hword hword)
  have hdigit : ch.isDigit = true ↔ 48 ≤ ch.toNat ∧ ch.toNat ≤ 57 :=
    Bool.and_eq_true_iff.trans (and_congr hword hword)
  have halphanum : ch.isAlphanum = true ↔
      (ch.isUpper = true ∨ ch.isLower = true) ∨ ch.isDigit = true :=
    Bool.or_eq_true_iff.trans (or_congr_left Bool.or_eq_true_iff)
  rw [halphanum, hupper, hlower, hdigit]
  simp only [isFileSafe, Text.isDigit, Bool.or_eq_true, Bool.and_eq_true, decide_eq_true_eq,
    beq_iff_eq]
  exact or_congr_left (or_congr_left or_comm)

/-- What is kept of a name, and the underscore that stands for the rest. -/
theorem nameChar_fileSafe {name : String} {ch : Char} (h : ch ∈ (fileSafe name).toList) :
    NameChar ch ∧ ch ≠ '.' := by
  rw [fileSafe, String.toList_ofList, List.mem_map] at h
  obtain ⟨kept, -, rfl⟩ := h
  split
  · next hsafe =>
    obtain halphanum | rfl := isFileSafe_iff.mp hsafe
    · refine ⟨.inl halphanum, ?_⟩
      rintro rfl
      exact absurd halphanum (by decide)
    · exact ⟨.inr (by decide), by decide⟩
  · exact ⟨.inr (by decide), by decide⟩

/-- Where no point is, points are apart. -/
theorem partChars_of_ne {cs : List Char} (h : ∀ ch ∈ cs, NameChar ch ∧ ch ≠ '.') :
    PartChars cs where
  nameChar ch hch := (h ch hch).1
  apart := by
    rw [List.isChain_iff_forall_rel_of_append_cons_cons]
    rintro a b before behind rfl
    exact .inl (h a (by simp)).2

/-- **The part of a component**, whatever its name is. -/
theorem partChars_componentPart (component : String × Nat) :
    PartChars (componentPart component).toList := by
  refine partChars_of_ne fun ch hch => ?_
  rw [componentPart, String.toList_append, String.toList_append, List.append_assoc, List.mem_append,
    List.mem_append] at hch
  obtain hname | hhyphen | hratio := hch
  · exact nameChar_fileSafe hname
  · rw [List.mem_singleton.mp hhyphen]
    exact ⟨.inr (by decide), by decide⟩
  · have hdigits := Layout.digits_toString component.2
    refine ⟨.inl (by simp [Char.isAlphanum, hdigits ch hratio]), ?_⟩
    rintro rfl
    exact hdigits.notMem rfl hratio

/-- Of points that are counted, two that stand together are two. -/
theorem isChain_apart_of_count_le {cs : List Char} (h : cs.count '.' ≤ 1) : cs.IsChain Apart := by
  rw [List.isChain_iff_forall_rel_of_append_cons_cons]
  rintro a b before behind rfl
  by_contra hboth
  rw [Apart, not_or, not_not, not_not] at hboth
  rw [hboth.1, hboth.2, List.count_append, List.count_cons_self, List.count_cons_self] at h
  omega

/-- **The part of a setting**, whatever its value is. -/
theorem partChars_settingPart (s : Setting) : PartChars (settingPart s).toList := by
  have hsigned := signed_settingPart s
  refine ⟨fun ch hch => (hsigned.alphanum hch).imp_right ?_,
    isChain_apart_of_count_le hsigned.count_le⟩
  rintro (rfl | rfl) <;> decide

/-- **Parts with underscores between them.** -/
theorem partChars_intercalate {parts : List (List Char)} (h : ∀ cs ∈ parts, PartChars cs) :
    PartChars (['_'].intercalate parts) := by
  induction parts with
  | nil => exact ⟨by simp, List.isChain_nil⟩
  | cons cs parts ih =>
    rw [List.forall_mem_cons] at h
    obtain ⟨hcs, hparts⟩ := h
    obtain rfl | hne := eq_or_ne parts []
    · rwa [List.intercalate_singleton]
    · have hrest := ih hparts
      rw [List.intercalate_cons_of_ne_nil hne, List.append_assoc]
      refine ⟨fun ch hch => ?_, hcs.apart.append (hrest.apart.cons fun _ _ => .inl (by decide)) ?_⟩
      · simp only [List.singleton_append, List.mem_append, List.mem_cons] at hch
        obtain hch | rfl | hch := hch
        · exact hcs.nameChar ch hch
        · exact .inr (by decide)
        · exact hrest.nameChar ch hch
      · rintro a - b hb
        obtain rfl : '_' = b := by simpa using hb
        exact .inr (by decide)

theorem partChars_jobName (c : Configuration) : PartChars c.jobName.toList := by
  rw [toList_jobName]
  refine partChars_intercalate ?_
  simp only [nameParts, List.map_append, List.map_map, List.mem_append, List.mem_map]
  rintro _ (⟨component, -, rfl⟩ | ⟨s, -, rfl⟩)
  · exact partChars_componentPart component
  · exact partChars_settingPart s

/-! ### The name of a file -/

/-- Parts are among the characters of the whole. -/
theorem subset_intercalate {parts : List (List Char)} {cs : List Char} (h : cs ∈ parts) :
    cs ⊆ ['_'].intercalate parts := by
  induction parts with
  | nil => cases h
  | cons first parts ih =>
    obtain rfl | hne := eq_or_ne parts []
    · rw [List.mem_singleton.mp h, List.intercalate_singleton]
      exact List.Subset.refl _
    · rw [List.intercalate_cons_of_ne_nil hne]
      obtain rfl | h := List.mem_cons.mp h
      · exact fun ch hch => List.mem_append_left _ (List.mem_append_left _ hch)
      · exact fun ch hch => List.mem_append_right _ (ih h hch)

/-- **There is a name**, because there is a setting. -/
theorem Built.jobName_ne_empty (h : Built c) : c.jobName ≠ "" := by
  obtain ⟨s, settings, hsettings⟩ := List.exists_cons_of_ne_nil h.settings_ne_nil
  have hmem : (settingPart s).toList ∈ c.nameParts.map String.toList :=
    List.mem_map_of_mem (List.mem_append_right _ (List.mem_map_of_mem (by simp [hsettings])))
  intro hempty
  have hsubset := subset_intercalate hmem
  rw [← toList_jobName, hempty, String.toList_empty, List.subset_nil] at hsubset
  exact (signed_settingPart s).ne_empty hsubset

/-- A text of characters of names is that of an entry, if something longer than two dots stands
behind it. -/
theorem isEntry_append {name suffix : String} (h : NameText name) (hsuffix : NameText suffix)
    (hlength : 2 < suffix.toList.length) : Path.IsEntry (name ++ suffix) := by
  have hchars : NameText (name ++ suffix) := by
    intro ch hch
    rw [String.toList_append, List.mem_append] at hch
    exact hch.elim (h ch) (hsuffix ch)
  have hlong {short : String} (hshort : short.toList.length ≤ 2) : name ++ suffix ≠ short := by
    rintro rfl
    rw [String.toList_append, List.length_append] at hshort
    omega
  exact ⟨hlong (by decide), hlong (by decide), hlong (by decide),
    fun hch => absurd (hchars _ hch) (by decide), fun hch => absurd (hchars _ hch) (by decide)⟩

/-- **The files of a job stay in their directories.** Whatever the names of its components, the keys
and the values of its settings are: there is a name, its characters are letters, digits and a few
signs, no two points stand together in it, and the archive and the report that have it lie right
below the directories of the archives and of the reports. -/
theorem Built.jobName_files (h : c.Built) (d : DataDirectory) :
    c.jobName ≠ "" ∧ NameText c.jobName ∧ ¬ ['.', '.'] <:+: c.jobName.toList ∧
      Path.DirectlyBelow d.archives (c.jobName ++ ".dtrj") (d.archiveFile c.jobName) ∧
      Path.DirectlyBelow d.reports (c.jobName ++ ".heightmap.json") (d.reportFile c.jobName) := by
  have hparts := partChars_jobName c
  refine ⟨h.jobName_ne_empty, hparts.nameChar, ?_, ?_, ?_⟩
  · rintro ⟨before, behind, heq⟩
    have hchain := hparts.apart
    rw [← heq, List.append_assoc] at hchain
    have hapart : Apart '.' '.' :=
      List.isChain_iff_forall_rel_of_append_cons_cons.mp hchain rfl
    exact hapart.elim (absurd rfl) (absurd rfl)
  · exact d.directlyBelow_archiveFile (isEntry_append hparts.nameChar (by decide) (by decide))
  · exact d.directlyBelow_reportFile (isEntry_append hparts.nameChar (by decide) (by decide))

/-- Names and keys that lead elsewhere if they are taken as they are, and a value that is no
number. -/
theorem jobName_files_of_dots :
    let c := ((initial.setRatio "../../etc/passwd" 1).setRatio "" 2).setSetting "a/../b" (0 / 0)
    let d : DataDirectory := ⟨"/home/a"⟩
    c.Built ∧ c.jobName ≠ "" ∧ NameText c.jobName ∧ ¬ ['.', '.'] <:+: c.jobName.toList ∧
      Path.DirectlyBelow d.archives (c.jobName ++ ".dtrj") (d.archiveFile c.jobName) ∧
      Path.DirectlyBelow d.reports (c.jobName ++ ".heightmap.json") (d.reportFile c.jobName) := by
  intro c d
  have hbuilt : c.Built := ((Built.initial.setRatio _ _).setRatio _ _).setSetting _ _
  exact ⟨hbuilt, hbuilt.jobName_files d⟩

end Configuration

end Deposition
