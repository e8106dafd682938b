import Deposition.Proofs.HeightMap.Envelope
import Mathlib.Data.List.Perm.Basic

/-!
# What a height map depends on

A height map is made of the particles that survive the gas cut, and of each of these only the cell
and the top are used. Neither their order nor what else there is in the frame matters: two frames
whose survivors have the same cells and the same tops, each as often, have the same height map, up
to the sign of a zero in the lowest top (`Deposition.HeightMap.depends_on_survivors`). A
computation that lets the particles of a frame land in any order, or in several groups at once,
relies on it.

The cut itself is another matter. It depends on all particles, those in the gas included, and on
the order in which their heights are added up; so a frame whose particles are put in another
order, or lose the ones in the gas, has the same height map provided that the cut then lets the
same ones pass.
-/

namespace Deposition

namespace HeightMap

/-! ### Particles and survivors -/

/-- The particles of a frame, each with its species if it has one. -/
def particles : List Position → List UInt8 → List (Position × Option UInt8)
  | [], _ => []
  | p :: positions, species => (p, species.head?) :: particles positions species.tail

/-- Whether a particle is not above a cutoff. -/
def survives (cutoff : Float) (particle : Position × Option UInt8) : Bool :=
  !decide (particle.1.y.toFloat > cutoff)

/-- The particles that are not in the gas. -/
def survivors (positions : List Position) (species : List UInt8) :
    List (Position × Option UInt8) :=
  (particles positions species).filter (survives (gasCutoff positions))

/-- The cell and the top of a particle. -/
def landing (scaleX scaleZ : Float) (bins : Nat) (radius : UInt8 → Single)
    (particle : Position × Option UInt8) : Nat × Single :=
  (periodicBin (particle.1.x.toFloat * scaleX) bins * bins +
      periodicBin (particle.1.z.toFloat * scaleZ) bins,
    particle.1.y.add ((particle.2.map radius).getD .zero))

theorem landingsFrom_eq (cutoff scaleX scaleZ : Float) (bins : Nat) (radius : UInt8 → Single)
    (positions : List Position) (species : List UInt8) :
    landingsFrom cutoff scaleX scaleZ bins radius positions species =
      ((particles positions species).filter (survives cutoff)).map
        (landing scaleX scaleZ bins radius) := by
  induction positions generalizing species with
  | nil => rfl
  | cons p positions ih =>
    unfold landingsFrom particles
    dsimp only
    split
    · next h => rw [ih, List.filter_cons_of_neg (by simp [survives, h])]
    · next h => rw [ih, List.filter_cons_of_pos (by simp [survives, h]), List.map_cons, landing]

/-- **Each survivor lands**, and no other particle does. -/
theorem landings_eq (positions : List Position) (species : List UInt8) (radius : UInt8 → Single)
    (bins : Nat) (footprint : Footprint) :
    landings positions species radius bins footprint =
      (survivors positions species).map (landing (natFloat bins / footprint.lx.toFloat)
        (natFloat bins / footprint.lz.toFloat) bins radius) :=
  landingsFrom_eq _ _ _ _ _ _ _

/-- **When there is a map**: there are cells, and they can be counted, and something lands. -/
theorem compute_eq (positions : List Position) (species : List UInt8) (radius : UInt8 → Single)
    (bins : Nat) (footprint : Footprint) :
    compute positions species radius bins footprint =
      if bins = 0 ∨ UInt64.size ≤ bins * bins ∨
        landings positions species radius bins footprint = [] then none
      else some (ofLandings bins (landings positions species radius bins footprint)) := by
  unfold compute
  cases positions with
  | nil => simp [landings, landingsFrom]
  | cons p positions =>
    simp only [List.isEmpty_cons, Bool.false_or, Bool.or_eq_true, beq_iff_eq, decide_eq_true_eq,
      List.isEmpty_iff]
    split
    · next h => rw [if_pos (by tauto)]
    · next h =>
      split
      · next hnone => rw [if_pos (.inr (.inr hnone))]
      · next hsome => rw [if_neg (by tauto)]

/-! ### Maps of the same landings -/

/-- **The same map**, up to the sign of a zero in the lowest top and in the film's thickness. -/
structure Alike (a b : HeightMap) : Prop where
  /-- As many cells. -/
  bins : a.bins = b.bins
  /-- The same heights. -/
  heights : a.heights = b.heights
  /-- The same mean. -/
  mean : a.mean = b.mean
  /-- The same roughness. -/
  roughness : a.roughness = b.roughness
  /-- The same lowest top, up to the sign of a zero. -/
  lowestTop : a.lowestTop.Alike b.lowestTop
  /-- The same thickness, up to the sign of a zero. -/
  filmThickness : a.filmThickness.Alike b.filmThickness

/-- A landing as it is seen by comparing: the cell, and the rank of the top. Zeros of different
signs are not told apart, and neither are patterns that are no number. -/
def seen (landing : Nat × Single) : Nat × Option Int := (landing.1, landing.2.rank)

theorem mem_map_rank_topsIn {cell : Nat} {r : Option Int} {landings : List (Nat × Single)} :
    r ∈ (topsIn cell landings).map Single.rank ↔ (cell, r) ∈ landings.map seen := by
  simp only [topsIn, seen, List.map_map, List.mem_map, List.mem_filter, beq_iff_eq, Prod.mk.injEq,
    Function.comp_apply, and_assoc]

theorem mem_map_rank {r : Option Int} {landings : List (Nat × Single)} :
    r ∈ (landings.map Prod.snd).map Single.rank ↔ ∃ cell, (cell, r) ∈ landings.map seen := by
  simp only [seen, List.map_map, List.mem_map, Prod.mk.injEq, Function.comp_apply]
  constructor
  · rintro ⟨l, hl, hr⟩
    exact ⟨l.1, l, hl, rfl, hr⟩
  · rintro ⟨_, l, hl, -, hr⟩
    exact ⟨l, hl, hr⟩

/-- The mean and the roughness of a map are made of its heights. -/
theorem mean_roughness_of_heights {a b : List (Nat × Single)} {bins : Nat}
    (h : (ofLandings bins a).heights = (ofLandings bins b).heights) :
    (ofLandings bins a).mean = (ofLandings bins b).mean ∧
      (ofLandings bins a).roughness = (ofLandings bins b).roughness := by
  unfold ofLandings at h ⊢
  dsimp only at h ⊢
  rw [h]
  exact ⟨rfl, rfl⟩

/-- **A map is determined by which landings are seen**, whatever their order and number. -/
theorem ofLandings_alike {a b : List (Nat × Single)} (bins : Nat)
    (hsame : ∀ l, l ∈ a.map seen ↔ l ∈ b.map seen) :
    Alike (ofLandings bins a) (ofLandings bins b) := by
  have hheights : (ofLandings bins a).heights = (ofLandings bins b).heights := by
    refine Array.ext_getElem? fun cell => ?_
    have hcell (r : Option Int) : r ∈ (topsIn cell a).map Single.rank ↔
        r ∈ (topsIn cell b).map Single.rank := by
      rw [mem_map_rank_topsIn, mem_map_rank_topsIn, hsame]
    rw [getElem?_heights, getElem?_heights, highest_congr hcell]
  have hlowest : (ofLandings bins a).lowestTop.Alike (ofLandings bins b).lowestTop := by
    rw [lowestTop_eq, lowestTop_eq]
    refine lowest_congr rfl fun r => ?_
    rw [mem_map_rank, mem_map_rank]
    exact exists_congr fun cell => hsame (cell, r)
  obtain ⟨hmean, hroughness⟩ := mean_roughness_of_heights hheights
  refine ⟨rfl, hheights, hmean, hroughness, hlowest, ?_⟩
  unfold filmThickness
  rw [hmean]
  exact hlowest.sub _

section

variable {positions positions' : List Position} {species species' : List UInt8}
  {radius radius' : UInt8 → Single} {bins : Nat} {footprint : Footprint}

/-- Two frames with the same landings have the same map, or neither has one. -/
theorem compute_alike
    (h : ((landings positions species radius bins footprint).map seen).Perm
      ((landings positions' species' radius' bins footprint).map seen)) :
    Option.Rel Alike (compute positions species radius bins footprint)
      (compute positions' species' radius' bins footprint) := by
  have hnil : landings positions species radius bins footprint = [] ↔
      landings positions' species' radius' bins footprint = [] := by
    have hlength := h.length_eq
    rw [List.length_map, List.length_map] at hlength
    rw [← List.length_eq_zero_iff, ← List.length_eq_zero_iff, hlength]
  rw [compute_eq, compute_eq]
  split
  · next hnone =>
    rw [hnil] at hnone
    rw [if_pos hnone]
    exact .none
  · next hsome =>
    rw [hnil] at hsome
    rw [if_neg hsome]
    exact .some (ofLandings_alike bins fun _ => h.mem_iff)

/-- Two frames with the same survivors have the same map, or neither has one. -/
theorem compute_alike_of_survivors
    (h : (survivors positions species).Perm (survivors positions' species')) :
    Option.Rel Alike (compute positions species radius bins footprint)
      (compute positions' species' radius bins footprint) := by
  refine compute_alike ?_
  rw [landings_eq, landings_eq]
  exact (h.map _).map _

/-- Particles in another order have the same survivors, provided that the same ones survive. -/
theorem survivors_perm (h : (particles positions species).Perm (particles positions' species'))
    (hsame : ∀ particle ∈ particles positions species,
      survives (gasCutoff positions) particle = survives (gasCutoff positions') particle) :
    (survivors positions species).Perm (survivors positions' species') := by
  unfold survivors
  rw [List.filter_congr hsame]
  exact h.filter _

/-- The survivors alone have the same survivors, provided that they survive their own cut. -/
theorem survivors_of_survivors (h : particles positions' species' = survivors positions species)
    (hall : ∀ particle ∈ particles positions' species',
      survives (gasCutoff positions') particle = true) :
    survivors positions' species' = survivors positions species := by
  rw [← h]
  exact List.filter_eq_self.mpr hall

/-- **A height map depends on what survives the gas cut, and only on it.** Take two frames, each
with its species and a radius for each species. If the cells and the tops of their survivors are
the same, each as often, then their height maps are the same up to the sign of a zero in the
lowest top and in the thickness of the film, or neither has one. In particular, a frame has the
same height map if its particles, with their species, come in another order in which the same ones
survive; and if those in the gas are taken out and the others survive the cut that then holds.
Tops may be anything here, also infinite or no number. -/
theorem depends_on_survivors (positions positions' : List Position) (species species' : List UInt8)
    (radius radius' : UInt8 → Single) (bins : Nat) (footprint : Footprint) :
    (((landings positions species radius bins footprint).map seen).Perm
        ((landings positions' species' radius' bins footprint).map seen) →
      Option.Rel Alike (compute positions species radius bins footprint)
        (compute positions' species' radius' bins footprint)) ∧
    ((particles positions species).Perm (particles positions' species') →
      (∀ particle ∈ particles positions species,
        survives (gasCutoff positions) particle = survives (gasCutoff positions') particle) →
      Option.Rel Alike (compute positions species radius bins footprint)
        (compute positions' species' radius bins footprint)) ∧
    (particles positions' species' = survivors positions species →
      (∀ particle ∈ particles positions' species',
        survives (gasCutoff positions') particle = true) →
      Option.Rel Alike (compute positions species radius bins footprint)
        (compute positions' species' radius bins footprint)) :=
  ⟨compute_alike, fun h hsame => compute_alike_of_survivors (survivors_perm h hsame),
    fun h hall => compute_alike_of_survivors (.of_eq (survivors_of_survivors h hall).symm)⟩

/-- Six particles stand in one cell. One of them is in the gas, one has a radius that is no
number, and the heights of the others are zeros of both signs. In the opposite order their lowest
top is the other zero. The one in the gas can be taken out; and with another radius the same tops
come from particles without a species. -/
theorem depends_on_survivors_of_gas :
    ∃ (stand : Single → Position) (one nan : Single) (radius : UInt8 → Single)
      (positions film : List Position) (species : List UInt8) (footprint : Footprint),
      stand = (fun y => ⟨.zero, y, .zero⟩) ∧ one.rank = some 0x3f800000 ∧ nan.rank = none ∧
      radius = (fun s => if s = 1 then nan else .negativeZero) ∧
      positions = [.zero, .negativeZero, .zero, .zero, .negativeZero, one].map stand ∧
      species = [0, 0, 1, 0, 0, 0] ∧
      film = [.zero, .negativeZero, nan, .zero, .negativeZero].map stand ∧
      Option.Rel Alike (compute positions species radius 1 footprint)
        (compute positions.reverse species.reverse radius 1 footprint) ∧
      (compute positions species radius 1 footprint).map lowestTop = some .zero ∧
      (compute positions.reverse species.reverse radius 1 footprint).map lowestTop =
        some .negativeZero ∧
      Option.Rel Alike (compute positions species radius 1 footprint)
        (compute (positions.take 5) (species.take 5) radius 1 footprint) ∧
      Option.Rel Alike (compute positions species radius 1 footprint)
        (compute film [] (fun _ => one) 1 footprint) := by
  let stand : Single → Position := fun y => ⟨.zero, y, .zero⟩
  let one : Single := ⟨0x3f800000⟩
  let nan : Single := ⟨0x7fc00000⟩
  let radius : UInt8 → Single := fun s => if s = 1 then nan else .negativeZero
  let positions : List Position :=
    [.zero, .negativeZero, .zero, .zero, .negativeZero, one].map stand
  let film : List Position := [.zero, .negativeZero, nan, .zero, .negativeZero].map stand
  let species : List UInt8 := [0, 0, 1, 0, 0, 0]
  let footprint : Footprint := ⟨one, one⟩
  have hreversed := (depends_on_survivors positions positions.reverse species species.reverse
    radius radius 1 footprint).2.1 (by decide +kernel) (by decide +kernel)
  have hfilm := (depends_on_survivors positions (positions.take 5) species (species.take 5)
    radius radius 1 footprint).2.2 (by decide +kernel) (by decide +kernel)
  have hother := (depends_on_survivors positions film species [] radius (fun _ => one) 1
    footprint).1 (by decide +kernel)
  exact ⟨stand, one, nan, radius, positions, film, species, footprint, rfl, by decide +kernel, rfl,
    rfl, rfl, rfl, rfl, hreversed, by decide +kernel, by decide +kernel, hfilm, hother⟩

end

end HeightMap

end Deposition
