import Deposition.Configuration
import Mathlib.Algebra.GCDMonoid.Multiset
import Mathlib.Algebra.GCDMonoid.Nat
import Mathlib.Data.List.Sort
import Mathlib.Data.String.Basic

/-!
# The shares of a mixture

Only the proportions of a mixture matter: one part of this and two of that are the same mixture as
ten parts and twenty, in whatever order they are listed and whatever else is listed with nothing of
it. What is left if all this is forgotten are the *shares* (`Deposition.Configuration.Shares`), a
set of names with numbers that have no factor in common.

The program gets there by calculation. It folds the greatest common divisor over the ratios, from
zero and with the zeros among them, and it sorts the components by their names. The fold is the
greatest common divisor of them all (`Deposition.Configuration.commonDivisor_eq`), and where no name
is there twice the sorted list is determined by its members
(`Deposition.Configuration.components_eq_iff`).
-/

namespace Deposition

namespace Configuration

/-! ### What ratios have in common -/

/-- **The greatest common divisor of the ratios**; zero if they are all zero. -/
def ratioGcd (mixture : List Ingredient) : Nat :=
  Multiset.gcd (mixture.map Ingredient.ratio : Multiset Nat)

/-- What a mixture is made of: the components that there is anything of. -/
def present (mixture : List Ingredient) : List Ingredient := mixture.filter fun i => i.ratio != 0

/-- **The shares of a mixture**: the names of its components, and how often each of them is there
for what they have in common. -/
def Shares (mixture : List Ingredient) : Set (String × Nat) :=
  {p | ∃ i ∈ present mixture, p = (i.resName, i.ratio / ratioGcd mixture)}

variable {mixture mixture' : List Ingredient} {i : Ingredient}

theorem mem_present : i ∈ present mixture ↔ i ∈ mixture ∧ i.ratio ≠ 0 := by
  simp [present]

@[simp] theorem ratioGcd_nil : ratioGcd [] = 0 := rfl

@[simp] theorem ratioGcd_cons (i : Ingredient) (mixture : List Ingredient) :
    ratioGcd (i :: mixture) = Nat.gcd i.ratio (ratioGcd mixture) := by
  rw [ratioGcd, List.map_cons, ← Multiset.cons_coe, Multiset.gcd_cons, gcd_eq_nat_gcd, ratioGcd]

theorem ratioGcd_dvd (h : i ∈ mixture) : ratioGcd mixture ∣ i.ratio :=
  Multiset.gcd_dvd (Multiset.mem_coe.mpr (List.mem_map_of_mem h))

theorem ratioGcd_pos (h : i ∈ present mixture) : 0 < ratioGcd mixture := by
  rw [mem_present] at h
  exact Nat.pos_of_dvd_of_pos (ratioGcd_dvd h.1) (Nat.pos_of_ne_zero h.2)

/-- The fold goes on from what it has so far. -/
theorem foldl_gcd (mixture : List Ingredient) (d : Nat) :
    mixture.foldl (fun d i => Nat.gcd d i.ratio) d = Nat.gcd d (ratioGcd mixture) := by
  induction mixture generalizing d with
  | nil => rw [List.foldl_nil, ratioGcd_nil, Nat.gcd_zero_right]
  | cons i mixture ih => rw [List.foldl_cons, ih, ratioGcd_cons, Nat.gcd_assoc]

/-- **The divisor of the program.** -/
theorem commonDivisor_eq (mixture : List Ingredient) :
    commonDivisor mixture = max (ratioGcd mixture) 1 := by
  rw [commonDivisor, foldl_gcd, Nat.gcd_zero_left]

/-- Zeros do not count. -/
theorem ratioGcd_present (mixture : List Ingredient) :
    ratioGcd (present mixture) = ratioGcd mixture := by
  induction mixture with
  | nil => rfl
  | cons i mixture ih =>
    rw [ratioGcd_cons, ← ih, present, present, List.filter_cons]
    split
    · rw [ratioGcd_cons]
    · next hzero =>
      have hratio : i.ratio = 0 := by simpa using hzero
      rw [hratio, Nat.gcd_zero_left]

/-- The order does not count. -/
theorem ratioGcd_perm (h : mixture.Perm mixture') : ratioGcd mixture = ratioGcd mixture' :=
  congrArg Multiset.gcd (Multiset.coe_eq_coe.mpr (h.map _))

/-! ### The same proportions -/

/-- Every ratio a number of times as large. -/
def scale (k : Nat) (i : Ingredient) : Ingredient := { i with ratio := k * i.ratio }

theorem ratioGcd_scale (k : Nat) (mixture : List Ingredient) :
    ratioGcd (mixture.map (scale k)) = k * ratioGcd mixture := by
  induction mixture with
  | nil => rfl
  | cons i mixture ih =>
    rw [List.map_cons, ratioGcd_cons, ih, ratioGcd_cons, scale, Nat.gcd_mul_left]

/-- **The same mixture**: made of the same components in the same proportions. -/
def Proportional (mixture mixture' : List Ingredient) : Prop :=
  ∃ k k', 0 < k ∧ 0 < k' ∧
    ((present mixture).map (scale k)).Perm ((present mixture').map (scale k'))

/-- The shares are those of the components that are there, however often they are taken. -/
theorem shares_eq_scale {k : Nat} (hk : 0 < k) (mixture : List Ingredient) :
    Shares mixture = {p | ∃ i ∈ (present mixture).map (scale k),
      p = (i.resName, i.ratio / ratioGcd ((present mixture).map (scale k)))} := by
  ext p
  rw [ratioGcd_scale, ratioGcd_present]
  simp [Shares, scale, Nat.mul_div_mul_left _ _ hk]

/-- **Shares depend on the proportions only**: not on the order, not on what there is nothing of,
and not on a factor of all ratios. -/
theorem Proportional.shares_eq (h : Proportional mixture mixture') :
    Shares mixture = Shares mixture' := by
  obtain ⟨k, k', hk, hk', hperm⟩ := h
  rw [shares_eq_scale hk, shares_eq_scale hk', ratioGcd_perm hperm]
  simp only [hperm.mem_iff]

/-- **Shares have no factor in common.** -/
theorem eq_one_of_dvd_shares (hne : (Shares mixture).Nonempty) {d : Nat}
    (h : ∀ p ∈ Shares mixture, d ∣ p.2) : d = 1 := by
  obtain ⟨-, i, hi, -⟩ := hne
  have hpos := ratioGcd_pos hi
  -- what divides all shares divides all ratios still after what they have in common
  have hdvd : ratioGcd mixture * d ∣ ratioGcd mixture := by
    refine Multiset.dvd_gcd.mpr fun ratio hratio => ?_
    obtain ⟨j, hj, rfl⟩ := List.mem_map.mp (Multiset.mem_coe.mp hratio)
    by_cases hzero : j.ratio = 0
    · rw [hzero]
      exact dvd_zero _
    · rw [← Nat.mul_div_cancel' (ratioGcd_dvd hj)]
      exact mul_dvd_mul_left _ (h _ ⟨j, mem_present.mpr ⟨hj, hzero⟩, rfl⟩)
  have hle : ratioGcd mixture * d ≤ ratioGcd mixture * 1 := by
    rw [mul_one]
    exact Nat.le_of_dvd hpos hdvd
  have hd : d ≠ 0 := by
    rintro rfl
    rw [mul_zero] at hdvd
    exact hpos.ne' (zero_dvd_iff.mp hdvd)
  have := Nat.le_of_mul_le_mul_left hle hpos
  omega

/-! ### The components in a name -/

/-- The components as the name of a job has them: in the order of their names, without those of
which there is nothing, and with the ratios divided. -/
def components (c : Configuration) : List (String × Nat) :=
  (present c.sortedMixture).map fun i => (i.resName, i.ratio / commonDivisor c.mixture)

variable {c c' : Configuration}

/-- **The components in a name are the shares.** -/
theorem mem_components {p : String × Nat} : p ∈ c.components ↔ p ∈ Shares c.mixture := by
  have hmem {i : Ingredient} : i ∈ present c.sortedMixture ↔ i ∈ present c.mixture := by
    rw [mem_present, mem_present, sortedMixture, List.mem_mergeSort]
  rw [components, List.mem_map]
  refine exists_congr fun i => ?_
  rw [hmem]
  refine and_congr_right fun hi => ?_
  rw [commonDivisor_eq, max_eq_left (ratioGcd_pos hi), eq_comm]

/-- The mixture is sorted by its names. -/
theorem pairwise_sortedMixture (c : Configuration) :
    c.sortedMixture.Pairwise (fun i j => i.resName ≤ j.resName) := by
  have hle (i j : Ingredient) :
      (!(decide (j.resName < i.resName))) = true ↔ i.resName ≤ j.resName := by
    rw [Bool.not_eq_true', decide_eq_false_iff_not, not_lt]
  refine (List.pairwise_mergeSort ?_ ?_ c.mixture).imp (hle _ _).mp
  · intro i j k hij hjk
    rw [hle] at hij hjk ⊢
    exact le_trans hij hjk
  · intro i j
    rw [Bool.or_eq_true, hle, hle]
    exact le_total _ _

/-- **Components are in the order of their names**, if no name is there twice. -/
theorem pairwise_components (h : (c.mixture.map Ingredient.resName).Nodup) :
    c.components.Pairwise (fun p q => p.1 < q.1) := by
  have hne : c.sortedMixture.Pairwise (fun i j => i.resName ≠ j.resName) :=
    List.pairwise_map.mp (((List.mergeSort_perm _ _).map _).nodup_iff.mpr h)
  have hlt := (c.pairwise_sortedMixture.and hne).imp fun ⟨hle, hne⟩ => lt_of_le_of_ne hle hne
  exact List.pairwise_map.mpr (hlt.filter _)

/-- **Components are the same where the shares are the same**, if no name is there twice. -/
theorem components_eq_iff (h : (c.mixture.map Ingredient.resName).Nodup)
    (h' : (c'.mixture.map Ingredient.resName).Nodup) :
    c.components = c'.components ↔ Shares c.mixture = Shares c'.mixture := by
  refine ⟨fun heq => ?_, fun heq => ?_⟩
  · ext p
    rw [← mem_components, heq, mem_components]
  · -- a list in strict order is determined by its members
    have hirrefl : Std.Irrefl fun p q : String × Nat => p.1 < q.1 := ⟨fun p => lt_irrefl p.1⟩
    have hantisymm : Std.Antisymm fun p q : String × Nat => p.1 < q.1 :=
      ⟨fun _ _ hlt hgt => absurd hgt (lt_asymm hlt)⟩
    refine (pairwise_components h).eq_of_mem_iff (pairwise_components h') fun p => ?_
    rw [mem_components, heq, mem_components]

end Configuration

end Deposition
