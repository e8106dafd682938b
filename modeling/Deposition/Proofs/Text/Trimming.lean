import Deposition.Proofs.Text.Decimals

/-!
# What is left of a text, and its parts

When the blanks at its ends are taken off, what is left of a text has none there
(`Deposition.Text.bare_trim`), so that taking them off twice is taking them off once, and nothing at
all is left of a text that is blank throughout (`Deposition.Text.trim_eq_empty_iff`).

A text is cut at the first of its marks: the part in front has no mark, and every further mark stays
in the part behind (`Deposition.Text.cutAt?_eq_some_iff`).
-/

namespace Deposition

namespace Text

/-! ### Blanks at the ends -/

theorem Blanks.append {cs ds : List Char} (hcs : Blanks cs) (hds : Blanks ds) :
    Blanks (cs ++ ds) := by
  intro c hc
  rcases List.mem_append.mp hc with hc | hc
  · exact hcs c hc
  · exact hds c hc

theorem Bare.nil : Bare [] := by
  constructor <;> simp

/-- **No blank is left at either end.** -/
theorem bare_trimChars (cs : List Char) : Bare (trimChars cs) := by
  constructor
  · intro c hc
    obtain ⟨rest, hrest⟩ := List.head?_eq_some_iff.mp hc
    -- what is cut off behind leaves the first character where it is
    have hprefix : trimChars cs <+: cs.dropWhile isBlank := by
      rw [trimChars, ← List.reverse_suffix, List.reverse_reverse]
      exact List.dropWhile_suffix _
    obtain ⟨behind, hbehind⟩ := hprefix
    have hhead := List.head?_dropWhile_not isBlank cs
    rw [← hbehind, hrest, List.cons_append, List.head?_cons] at hhead
    simpa using hhead
  · intro c hc
    have hhead := List.head?_dropWhile_not isBlank (cs.dropWhile isBlank).reverse
    rw [trimChars, List.getLast?_reverse] at hc
    rw [hc] at hhead
    simpa using hhead

theorem bare_trim (s : String) : Bare (trim s).toList := by
  rw [trim, String.toList_ofList]
  exact bare_trimChars s.toList

/-- **Nothing is left of blanks**, and something is left of everything else. -/
theorem trim_eq_empty_iff {s : String} : trim s = "" ↔ Blanks s.toList := by
  have hempty : Bare ("" : String).toList := Bare.nil
  rw [trim_eq_iff hempty]
  constructor
  · rintro ⟨before, after, hbefore, hafter, hs⟩
    rw [hs, String.toList_empty, List.append_nil]
    exact hbefore.append hafter
  · intro hs
    exact ⟨s.toList, [], hs, fun c hc => absurd hc List.not_mem_nil, by simp⟩

/-! ### The first mark -/

variable {mark : Char}

/-- Up to its first mark a text is as the part in front says. -/
theorem takeWhile_ne_append {before : List Char} (hbefore : mark ∉ before) (after : List Char) :
    (before ++ mark :: after).takeWhile (· != mark) = before ∧
      (before ++ mark :: after).dropWhile (· != mark) = mark :: after := by
  have hne : ∀ c ∈ before, (c != mark) = true := by
    intro c hc
    rw [bne_iff_ne]
    rintro rfl
    exact hbefore hc
  rw [List.takeWhile_append_of_pos hne, List.dropWhile_append_of_pos hne]
  constructor <;> simp

/-- **A text is cut at its first mark**, and what is behind the mark is not looked at. -/
theorem cutAt?_eq_some_iff {s before after : String} : cutAt? mark s = some (before, after) ↔
    mark ∉ before.toList ∧ s.toList = before.toList ++ mark :: after.toList := by
  constructor
  · intro h
    unfold cutAt? at h
    split at h
    · cases h
    · next c rest hrest =>
      obtain ⟨rfl, rfl⟩ := Prod.mk.inj (Option.some.inj h)
      have hmark : c = mark := by
        have hhead := List.head?_dropWhile_not (· != mark) s.toList
        rw [hrest] at hhead
        simpa using hhead
      rw [String.toList_ofList, String.toList_ofList]
      constructor
      · intro hmem
        simpa using List.mem_takeWhile_imp hmem
      · rw [← hmark, ← hrest, hmark, List.takeWhile_append_dropWhile]
  · rintro ⟨hbefore, hs⟩
    obtain ⟨htake, hdrop⟩ := takeWhile_ne_append hbefore after.toList
    simp only [cutAt?, hs, htake, hdrop, String.ofList_toList]

/-- The same for the parts as they stand in the text. -/
theorem cutAt?_of_toList_eq {s : String} {before after : List Char} (hbefore : mark ∉ before)
    (hs : s.toList = before ++ mark :: after) :
    cutAt? mark s = some (String.ofList before, String.ofList after) := by
  rw [cutAt?_eq_some_iff, String.toList_ofList, String.toList_ofList]
  exact ⟨hbefore, hs⟩

/-- A text without the mark is not cut. -/
theorem cutAt?_eq_none_iff {s : String} : cutAt? mark s = none ↔ mark ∉ s.toList := by
  have hnil : cutAt? mark s = none ↔ s.toList.dropWhile (· != mark) = [] := by
    unfold cutAt?
    split <;> simp_all
  rw [hnil, List.dropWhile_eq_nil_iff]
  constructor
  · intro h hmem
    simpa using h mark hmem
  · intro h c hc
    rw [bne_iff_ne]
    rintro rfl
    exact h hc

end Text

end Deposition
