import Deposition.Proofs.Configuration.FileName

/-!
# The name of a job and the job

Files of a job overwrite those of another one with the same name, so a name has to tell jobs apart,
and it has to be the same for a job that is put together in another way. Both hold of the jobs that
are meant here (`Deposition.Configuration.Named`): the names of their components have no characters
that a name does not keep, and no component is there twice.

Hyphens do not tell the parts of a name apart, because they stand before a ratio and before a
negative value alike. A name can be read back for other reasons. No part has an underscore in it, so
the parts are found again (`Deposition.Configuration.Named.splitOn_jobName`); as many of them at the
end belong to settings as there are settings; and the name of a component has no hyphen, so the
first hyphen of its part stands before the ratio (`Deposition.Configuration.componentPart_inj`).
-/

namespace Deposition

namespace Configuration

/-- A name of which every character is kept. -/
def Safe (name : String) : Prop := ∀ ch ∈ name.toList, ch.isAlphanum = true ∨ ch = '+'

instance : DecidablePred Safe := fun name =>
  List.decidableBAll (fun ch : Char => ch.isAlphanum = true ∨ ch = '+') name.toList

/-- **A configuration that its name identifies**: the names of its components are letters, digits
and plus signs, and each of them is there once. -/
structure Named (c : Configuration) : Prop where
  /-- It is one that can be built. -/
  built : c.Built
  /-- Names are kept as they are. -/
  safe : ∀ i ∈ c.mixture, Safe i.resName
  /-- No name is there twice. -/
  nodup : (c.mixture.map Ingredient.resName).Nodup

/-- **Settings print the same**: where two configurations have the same key, the text of the value
is the same. -/
def PrintSame (c c' : Configuration) : Prop :=
  ∀ s ∈ c.settings, ∀ s' ∈ c'.settings, s.key = s'.key → settingPart s = settingPart s'

variable {c c' : Configuration}

/-! ### One part -/

theorem Safe.fileSafe_eq {name : String} (h : Safe name) : fileSafe name = name := by
  rw [← String.toList_inj, fileSafe, String.toList_ofList]
  conv_rhs => rw [← List.map_id name.toList]
  exact List.map_congr_left fun ch hch => if_pos (isFileSafe_iff.mpr (h ch hch))

theorem Safe.notMem {name : String} (h : Safe name) {ch : Char} (hch : ch = '-' ∨ ch = '_') :
    ch ∉ name.toList := by
  intro hmem
  obtain rfl | rfl := hch <;> exact absurd (h _ hmem) (by decide)

/-- Digits read back. -/
theorem eq_of_toString_eq {m n : Nat} (h : toString m = toString n) : m = n := by
  rw [← Nat.ofDigitChars_ten_toDigits (n := m), ← Nat.toList_repr, ← Nat.toString_eq_repr, h,
    Nat.toString_eq_repr, Nat.toList_repr, Nat.ofDigitChars_ten_toDigits]

/-- The part of a component, with the hyphen that separates name and ratio. -/
theorem toList_componentPart {p : String × Nat} (h : Safe p.1) :
    (componentPart p).toList = p.1.toList ++ '-' :: (toString p.2).toList := by
  rw [componentPart, h.fileSafe_eq, String.toList_append, String.toList_append, List.append_assoc]
  rfl

/-- **The part of a component can be read back**: the name is what is before the hyphen. -/
theorem componentPart_inj {p q : String × Nat} (hp : Safe p.1) (hq : Safe q.1) :
    componentPart p = componentPart q ↔ p = q := by
  rw [← String.toList_inj, toList_componentPart hp, toList_componentPart hq,
    List.append_cons_inj_of_notMem (hp.notMem (.inl rfl)) ((Layout.digits_toString p.2).notMem rfl),
    String.toList_inj, String.toList_inj]
  refine ⟨fun ⟨hname, _, hratio⟩ => Prod.ext hname (eq_of_toString_eq hratio), ?_⟩
  rintro rfl
  exact ⟨rfl, rfl, rfl⟩

/-- There is no underscore in the part of a component. -/
theorem underscore_notMem_componentPart {p : String × Nat} (h : Safe p.1) :
    '_' ∉ (componentPart p).toList := by
  rw [toList_componentPart h, List.mem_append, List.mem_cons, not_or, not_or]
  exact ⟨h.notMem (.inr rfl), by decide, (Layout.digits_toString p.2).notMem rfl⟩

/-- There is no underscore in the part of a setting. -/
theorem underscore_notMem_settingPart (s : Setting) : '_' ∉ (settingPart s).toList := by
  intro hmem
  exact absurd ((signed_settingPart s).alphanum hmem) (by decide)

/-! ### All parts -/

theorem Named.safe_components (h : c.Named) {p : String × Nat} (hp : p ∈ c.components) :
    Safe p.1 := by
  obtain ⟨i, hi, rfl⟩ := mem_components.mp hp
  exact h.safe i (mem_present.mp hi).1

/-- **The parts of a name are what is between its underscores.** -/
theorem Named.splitOn_jobName (h : c.Named) :
    c.jobName.toList.splitOn '_' = c.nameParts.map String.toList := by
  rw [toList_jobName]
  refine List.splitOn_intercalate _ ?_ ?_
  · simp only [nameParts, List.map_append, List.map_map, List.mem_append, List.mem_map]
    rintro _ (⟨p, hp, rfl⟩ | ⟨s, -, rfl⟩)
    · exact underscore_notMem_componentPart (h.safe_components hp)
    · exact underscore_notMem_settingPart s
  · simp [nameParts, h.built.settings_ne_nil]

/-- Names are the same where their parts are. -/
theorem Named.nameParts_eq_iff (h : c.Named) (h' : c'.Named) :
    c.nameParts = c'.nameParts ↔ c.jobName = c'.jobName := by
  refine ⟨fun heq => by rw [jobName_eq, heq, jobName_eq], fun heq => ?_⟩
  have hsplit : c.nameParts.map String.toList = c'.nameParts.map String.toList := by
    rw [← h.splitOn_jobName, heq, h'.splitOn_jobName]
  exact List.map_injective_iff.mpr (fun _ _ => String.toList_inj.mp) hsplit

/-- Parts of components are the same where the components are. -/
theorem map_componentPart_inj {ps qs : List (String × Nat)} (hps : ∀ p ∈ ps, Safe p.1)
    (hqs : ∀ q ∈ qs, Safe q.1) : ps.map componentPart = qs.map componentPart ↔ ps = qs := by
  induction ps generalizing qs with
  | nil => cases qs <;> simp
  | cons p ps ih =>
    cases qs with
    | nil => simp
    | cons q qs =>
      rw [List.forall_mem_cons] at hps hqs
      rw [List.map_cons, List.map_cons, List.cons_eq_cons, componentPart_inj hps.1 hqs.1,
        ih hps.2 hqs.2, List.cons_eq_cons]

/-- Parts of settings are the same where the settings print the same, if the keys are the same. -/
theorem map_settingPart_eq_iff (hkeys : c.keys = c'.keys) (hnodup : c.keys.Nodup) :
    c.settings.map settingPart = c'.settings.map settingPart ↔ PrintSame c c' := by
  have hlength : c.settings.length = c'.settings.length := by
    simpa [keys] using congrArg List.length hkeys
  have hkey (n : Nat) (hn : n < c.settings.length) (hn' : n < c'.settings.length) :
      c.settings[n].key = c'.settings[n].key := by
    simpa [keys, hn, hn'] using congrArg (fun ks : List String => ks[n]?) hkeys
  refine ⟨fun heq s hs s' hs' hsame => ?_, fun hprint => ?_⟩
  · obtain ⟨n, hn', rfl⟩ := List.mem_iff_getElem.mp hs'
    have hn : n < c.settings.length := hlength ▸ hn'
    -- a key is in one place only, so the two settings are in the same place
    obtain rfl : s = c.settings[n] :=
      List.inj_on_of_nodup_map hnodup hs (List.getElem_mem hn) (hsame.trans (hkey n hn hn').symm)
    simpa [hn, hn'] using congrArg (fun texts : List String => texts[n]?) heq
  · refine List.ext_getElem (by simpa using hlength) fun n hn hn' => ?_
    rw [List.length_map] at hn hn'
    rw [List.getElem_map, List.getElem_map]
    exact hprint _ (List.getElem_mem hn) _ (List.getElem_mem hn') (hkey n hn hn')

/-! ### The name -/

/-- The components and the settings of a name are found again. -/
theorem Named.components_eq_of_jobName_eq (h : c.Named) (h' : c'.Named) (hkeys : c.keys = c'.keys)
    (hname : c.jobName = c'.jobName) :
    c.components = c'.components ∧
      c.settings.map settingPart = c'.settings.map settingPart := by
  have hparts := (h.nameParts_eq_iff h').mpr hname
  -- the parts at the end are as many as there are keys
  have hlength : (c.settings.map settingPart).length = (c'.settings.map settingPart).length := by
    simpa [keys] using congrArg List.length hkeys
  obtain ⟨hcomponents, hsettings⟩ := List.append_inj' hparts hlength
  exact ⟨(map_componentPart_inj (fun _ => h.safe_components) fun _ => h'.safe_components).mp
    hcomponents, hsettings⟩

/-- **Names are the same where the shares are and the settings print the same**, if the keys are
the same. -/
theorem Named.jobName_eq_iff (h : c.Named) (h' : c'.Named) (hkeys : c.keys = c'.keys) :
    c.jobName = c'.jobName ↔ Shares c.mixture = Shares c'.mixture ∧ PrintSame c c' := by
  rw [← components_eq_iff h.nodup h'.nodup, ← map_settingPart_eq_iff hkeys h.built.keys_nodup]
  refine ⟨h.components_eq_of_jobName_eq h' hkeys, fun ⟨hcomponents, hsettings⟩ => ?_⟩
  rw [jobName_eq, jobName_eq, nameParts, nameParts, hcomponents, hsettings]

/-- The parts of the components as they stand in the name. -/
theorem Named.jobName_eq_intercalate (h : c.Named) :
    c.jobName = String.intercalate "_"
      (c.components.map (fun p => p.1 ++ "-" ++ toString p.2) ++ c.settings.map settingPart) := by
  rw [jobName_eq, nameParts]
  congr 2
  refine List.map_congr_left fun p hp => ?_
  rw [componentPart, (h.safe_components hp).fileSafe_eq]

/-- **The name of a job identifies it.** Of two configurations with the same keys, with names of
components that a name keeps and none of them twice:

* the names of the jobs are the same if and only if the shares are the same and all settings print
  the same;
* so they are the same for mixtures of the same proportions, whatever their order is, whatever else
  is listed with a ratio of zero, and whatever factor the ratios have in common;
* and a name consists of shares, each one once, and of the texts of the settings, and there is no
  factor that the shares in it have in common. -/
theorem jobName_identifies (h : c.Named) (h' : c'.Named)
    (hkeys : ∀ key, key ∈ c.keys ↔ key ∈ c'.keys) :
    (c.jobName = c'.jobName ↔ Shares c.mixture = Shares c'.mixture ∧ PrintSame c c') ∧
    (Proportional c.mixture c'.mixture → PrintSame c c' → c.jobName = c'.jobName) ∧
    ∃ shares : List (String × Nat),
      (∀ p, p ∈ shares ↔ p ∈ Shares c.mixture) ∧ shares.Nodup ∧
      c.jobName = String.intercalate "_"
        (shares.map (fun p => p.1 ++ "-" ++ toString p.2) ++ c.settings.map settingPart) ∧
      (shares ≠ [] → ∀ d, (∀ p ∈ shares, d ∣ p.2) → d = 1) := by
  have hiff := h.jobName_eq_iff h' ((h.built.keys_eq_iff h'.built).mpr hkeys)
  refine ⟨hiff, fun hmixture hprint => hiff.mpr ⟨hmixture.shares_eq, hprint⟩, c.components,
    fun p => mem_components, ?_, h.jobName_eq_intercalate, fun hne d hd => ?_⟩
  · exact (pairwise_components h.nodup).imp fun hlt heq => absurd (congrArg Prod.fst heq) hlt.ne
  · obtain ⟨p, hp⟩ := List.exists_mem_of_ne_nil _ hne
    exact eq_one_of_dvd_shares ⟨p, mem_components.mp hp⟩ fun q hq => hd q (mem_components.mpr hq)

/-- Two parts of one component and one of another, put together in two ways; and with a third
component the name is another one. -/
theorem jobName_identifies_of_two :
    let c := ((initial.setRatio "DCBP+" 2).setRatio "C60" 4).setRatio "TCTA" 0
    let c' := (initial.setRatio "C60" 6).setRatio "DCBP+" 3
    let c'' := c.setRatio "TCTA" 1
    c.Named ∧ c'.Named ∧ c''.Named ∧ c.jobName = c'.jobName ∧ c.jobName ≠ c''.jobName := by
  intro c c' c''
  have hc : c.Named :=
    ⟨((Built.initial.setRatio _ _).setRatio _ _).setRatio _ _, by decide, by decide⟩
  have hc' : c'.Named := ⟨(Built.initial.setRatio _ _).setRatio _ _, by decide, by decide⟩
  have hc'' : c''.Named := ⟨hc.built.setRatio _ _, by decide, by decide⟩
  have hprint : PrintSame c c' := by
    rintro s hs s' hs' -
    rw [List.mem_singleton.mp hs, List.mem_singleton.mp hs']
  refine ⟨hc, hc', hc'', ?_, ?_⟩
  · exact (jobName_identifies hc hc' fun _ => Iff.rfl).2.1
      ⟨3, 2, by decide, by decide, by decide⟩ hprint
  · rw [Ne, (jobName_identifies hc hc'' fun _ => Iff.rfl).1]
    rintro ⟨hshares, -⟩
    have hmem : ("TCTA", 1) ∈ Shares c''.mixture := ⟨⟨"TCTA", 1⟩, by decide, by decide⟩
    rw [← hshares] at hmem
    obtain ⟨i, hi, heq⟩ := hmem
    revert i
    decide

end Configuration

end Deposition
