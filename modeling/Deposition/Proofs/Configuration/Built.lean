import Deposition.Configuration
import Mathlib.Data.List.Sort
import Mathlib.Data.String.Basic

/-!
# Configurations that can be built

A configuration is begun empty or with a catalog, and then ratios and values are set, in any order
and to anything: names and keys are arbitrary text, and a value may be no number. Of what comes of
that (`Deposition.Configuration.Built`) this file keeps what the rest of the program relies on.

The settings are a list, and it is the order of the keys that makes a table of it: each key is there
once, and two configurations with the same keys have them in the same places
(`Deposition.Configuration.Built.keys_eq_iff`). And no setting is ever taken out, so the one that a
configuration is begun with stays (`Deposition.Configuration.Built.velocity_mem`).
-/

namespace Deposition

namespace Configuration

/-- **A configuration that can be built**, from the program's defaults or from any catalog. -/
inductive Built : Configuration → Prop
  /-- A configuration is begun empty. -/
  | initial : Built initial
  /-- Or it is begun with the components of a catalog. -/
  | ofCatalog (catalog : Catalog) : Built (ofCatalog catalog)
  /-- A ratio is set. -/
  | setRatio {c : Configuration} (h : Built c) (name : String) (ratio : Nat) :
    Built (c.setRatio name ratio)
  /-- A value is set. -/
  | setSetting {c : Configuration} (h : Built c) (key : String) (value : Float) :
    Built (c.setSetting key value)

/-- The keys of the settings, in their order. -/
def keys (c : Configuration) : List String := c.settings.map Setting.key

/-! ### One value -/

section WithSetting

variable {key : String} {value : Float} {settings : List Setting}

/-- Setting a value adds its key and takes none away. -/
theorem mem_keys_withSetting {k : String} :
    k ∈ (withSetting key value settings).map Setting.key ↔
      k = key ∨ k ∈ settings.map Setting.key := by
  induction settings with
  | nil => simp [withSetting]
  | cons s settings ih =>
    rw [withSetting]
    split
    · next hkey => simp [hkey]
    split
    · simp
    · rw [List.map_cons, List.mem_cons, ih, List.map_cons, List.mem_cons, or_left_comm]

/-- **The keys stay in order**, each of them once. -/
theorem pairwise_withSetting (h : (settings.map Setting.key).Pairwise (· < ·)) :
    ((withSetting key value settings).map Setting.key).Pairwise (· < ·) := by
  induction settings with
  | nil => simp [withSetting]
  | cons s settings ih =>
    rw [List.map_cons, List.pairwise_cons] at h
    obtain ⟨hs, hsettings⟩ := h
    rw [withSetting]
    split
    · exact List.pairwise_cons.mpr ⟨hs, hsettings⟩
    · next hkey =>
      split
      · next hlt =>
        -- the new key comes before all others, because it comes before the first of them
        refine List.pairwise_cons.mpr ⟨fun k hk => ?_, List.pairwise_cons.mpr ⟨hs, hsettings⟩⟩
        obtain rfl | hk := List.mem_cons.mp hk
        · exact hlt
        · exact lt_trans hlt (hs k hk)
      · next hlt =>
        refine List.pairwise_cons.mpr ⟨fun k hk => ?_, ih hsettings⟩
        obtain rfl | hk := mem_keys_withSetting.mp hk
        · exact lt_of_le_of_ne (not_lt.mp hlt) hkey
        · exact hs k hk

end WithSetting

/-! ### All of them -/

variable {c c' : Configuration}

/-- **The keys are in order.** -/
theorem Built.keys_pairwise (h : Built c) : c.keys.Pairwise (· < ·) := by
  induction h with
  | initial => exact List.pairwise_singleton _ _
  | ofCatalog => exact List.pairwise_singleton _ _
  | setRatio _ _ _ ih => exact ih
  | setSetting _ _ _ ih => exact pairwise_withSetting ih

/-- No key is there twice. -/
theorem Built.keys_nodup (h : Built c) : c.keys.Nodup := h.keys_pairwise.imp fun hlt => hlt.ne

/-- **The velocity is never taken out.** -/
theorem Built.velocity_mem (h : Built c) : depositionVelocity.key ∈ c.keys := by
  induction h with
  | initial => exact List.mem_singleton.mpr rfl
  | ofCatalog => exact List.mem_singleton.mpr rfl
  | setRatio _ _ _ ih => exact ih
  | setSetting _ _ _ ih => exact mem_keys_withSetting.mpr (.inr ih)

/-- There is always a setting. -/
theorem Built.settings_ne_nil (h : Built c) : c.settings ≠ [] := by
  intro hnil
  have hmem := h.velocity_mem
  rw [keys, hnil] at hmem
  cases hmem

/-- **Keys that are the same are in the same places.** -/
theorem Built.keys_eq_iff (h : Built c) (h' : Built c') :
    c.keys = c'.keys ↔ ∀ k, k ∈ c.keys ↔ k ∈ c'.keys := by
  refine ⟨fun heq k => by rw [heq], fun hmem => ?_⟩
  exact h.keys_pairwise.eq_of_mem_iff h'.keys_pairwise hmem

end Configuration

end Deposition
