import Deposition.Proofs.HeightMap.Survivors
import Deposition.Proofs.Number.Whole
import Mathlib.Logic.ExistsUnique

/-!
# The grid of a height map

A particle is put into a cell by two coordinates that can be anything: infinite, no number, or far
beyond what 64 bits hold, since the footprint by which they are scaled may be zero or no number
itself. What saves the grid is that each coordinate is cut down to a whole number within 64 bits,
and then to its remainder by the number of bins. A remainder by a positive number is below that
number; and the number of bins is positive as a word with a sign too, because a grid whose cells can
be counted with 64 bits has fewer than `2 ^ 32` bins along each direction
(`Deposition.HeightMap.toInt64_bins`).

So a landing never leaves the grid (`Deposition.HeightMap.stays_on_grid`). The cells of one `x` lie
together, and reading the map by the two coordinates goes over its heights once, since the index
takes both apart again by quotient and remainder (`Deposition.HeightMap.existsUnique_index`).
-/

namespace Deposition

namespace HeightMap

variable {positions : List Position} {species : List UInt8} {radius : UInt8 → Single}
  {bins bx bz i : ℕ} {footprint : Footprint} {map : HeightMap}

/-! ### The cell of a particle -/

/-- The bin along `x` that a particle falls into. -/
def binX (bins : ℕ) (footprint : Footprint) (particle : Position × Option UInt8) : ℕ :=
  periodicBin (particle.1.x.toFloat * (natFloat bins / footprint.lx.toFloat)) bins

/-- The bin along `z` that a particle falls into. -/
def binZ (bins : ℕ) (footprint : Footprint) (particle : Position × Option UInt8) : ℕ :=
  periodicBin (particle.1.z.toFloat * (natFloat bins / footprint.lz.toFloat)) bins

/-- The cell that a particle falls into. -/
def cell (bins : ℕ) (footprint : Footprint) (particle : Position × Option UInt8) : ℕ :=
  binX bins footprint particle * bins + binZ bins footprint particle

/-- The top of a particle: its height and its radius, if its species is known. -/
def top (radius : UInt8 → Single) (particle : Position × Option UInt8) : Single :=
  particle.1.y.add ((particle.2.map radius).getD .zero)

/-- **The landings of a frame** are the cells and the tops of its survivors. -/
theorem landings_eq_map (positions : List Position) (species : List UInt8)
    (radius : UInt8 → Single) (bins : ℕ) (footprint : Footprint) :
    landings positions species radius bins footprint =
      (survivors positions species).map fun particle =>
        (cell bins footprint particle, top radius particle) :=
  landings_eq positions species radius bins footprint

/-! ### Bins -/

/-- A grid whose cells can be counted has few bins. -/
theorem bins_lt (h : bins * bins < UInt64.size) : bins < 2 ^ 32 := by
  by_contra hle
  have hsquare : 2 ^ 32 * 2 ^ 32 ≤ bins * bins := Nat.mul_le_mul (by omega) (by omega)
  have hsize : UInt64.size = 2 ^ 32 * 2 ^ 32 := rfl
  omega

/-- **The number of bins stays what it is** as a word with a sign. -/
theorem toInt64_bins (h : bins * bins < UInt64.size) :
    (UInt64.ofNat bins).toInt64.toInt = bins := by
  have hlt := bins_lt h
  rw [UInt64.toInt64_ofNat']
  exact Int64.toInt_ofNat_of_lt (by omega)

/-- **The bin of a coordinate** is the remainder of what the coordinate is cut down to. -/
theorem natCast_periodicBin (scaled : Float) (h : 0 < bins) :
    (periodicBin scaled bins : ℤ) = (Binary.ofFloat scaled).cut % bins := by
  rw [periodicBin, floorInt64_eq]
  exact Int.toNat_of_nonneg (Int.emod_nonneg _ (by omega))

theorem periodicBin_lt (scaled : Float) (h : 0 < bins) : periodicBin scaled bins < bins := by
  have hrem := natCast_periodicBin scaled h
  have hlt := Int.emod_lt_of_pos (Binary.ofFloat scaled).cut (Int.natCast_pos.mpr h)
  omega

/-! ### Cells -/

/-- Two bins of a grid make a cell of it. -/
theorem index_lt (hx : bx < bins) (hz : bz < bins) : bx * bins + bz < bins * bins := by
  calc bx * bins + bz < bx * bins + bins := by omega
    _ = (bx + 1) * bins := (Nat.succ_mul bx bins).symm
    _ ≤ bins * bins := Nat.mul_le_mul_right bins hx

/-- **Every cell of a grid belongs to one pair of bins.** -/
theorem existsUnique_index (hi : i < bins * bins) :
    ∃! pair : ℕ × ℕ, pair.1 < bins ∧ pair.2 < bins ∧ pair.1 * bins + pair.2 = i := by
  have hpos : 0 < bins := by
    rcases Nat.eq_zero_or_pos bins with rfl | hpos
    · simp at hi
    · exact hpos
  refine ⟨(i / bins, i % bins),
    ⟨Nat.div_lt_of_lt_mul hi, Nat.mod_lt _ hpos, Nat.div_add_mod' i bins⟩, ?_⟩
  rintro ⟨bx, bz⟩ ⟨-, hz, rfl⟩
  refine Prod.ext ?_ ?_
  · change bx = (bx * bins + bz) / bins
    rw [Nat.add_comm, Nat.add_mul_div_right _ _ hpos, Nat.div_eq_of_lt hz, Nat.zero_add]
  · change bz = (bx * bins + bz) % bins
    rw [Nat.mul_add_mod', Nat.mod_eq_of_lt hz]

theorem size_heights (bins : ℕ) (landings : List (ℕ × Single)) :
    (ofLandings bins landings).heights.size = bins * bins := by
  unfold ofLandings
  dsimp only
  refine List.foldlRecOn (motive := fun heights : Array Single => heights.size = bins * bins)
    landings raise Array.size_replicate fun heights h landing _ => ?_
  rw [raise, Array.size_modify, h]

/-- A map of landings is read at the index of two bins. -/
theorem height?_ofLandings (landings : List (ℕ × Single)) (hx : bx < bins) (hz : bz < bins) :
    (ofLandings bins landings).height? bx bz =
      (ofLandings bins landings).heights[bx * bins + bz]? := by
  have hbins : (ofLandings bins landings).bins = bins := rfl
  rw [height?, hbins, if_neg (by simp; omega)]

/-- **A map can be read at the bins of its grid**, and nowhere else. -/
theorem isSome_height?_iff (landings : List (ℕ × Single)) :
    ((ofLandings bins landings).height? bx bz).isSome = true ↔ bx < bins ∧ bz < bins := by
  constructor
  · intro h
    by_contra hout
    have hbins : (ofLandings bins landings).bins = bins := rfl
    rw [height?, hbins, if_pos (by simp; omega)] at h
    simp at h
  · rintro ⟨hx, hz⟩
    rw [height?_ofLandings landings hx hz, isSome_getElem?]
    rw [size_heights]
    exact index_lt hx hz

/-! ### Maps -/

theorem map_fst_particles (positions : List Position) (species : List UInt8) :
    (particles positions species).map Prod.fst = positions := by
  induction positions generalizing species with
  | nil => rfl
  | cons p positions ih => rw [particles, List.map_cons, ih]

/-- **Nobody survives** if everyone is above the cutoff. -/
theorem survivors_eq_nil_iff :
    survivors positions species = [] ↔ ∀ p ∈ positions, p.y.toFloat > gasCutoff positions := by
  have hparticle (p : Position) :
      p ∈ positions ↔ ∃ particle ∈ particles positions species, particle.1 = p := by
    conv_lhs => rw [← map_fst_particles positions species]
    exact List.mem_map
  rw [survivors, List.filter_eq_nil_iff]
  constructor
  · intro h p hp
    obtain ⟨particle, hmem, rfl⟩ := (hparticle p).mp hp
    simpa [survives] using h particle hmem
  · intro h particle hmem
    simpa [survives] using h particle.1 ((hparticle _).mpr ⟨particle, hmem, rfl⟩)

/-- **When there is no map**: there are no particles or no cells, the cells cannot be counted, or
everything is in the gas. -/
theorem compute_eq_none_iff : compute positions species radius bins footprint = none ↔
    positions = [] ∨ bins = 0 ∨ UInt64.size ≤ bins * bins ∨
      ∀ p ∈ positions, p.y.toFloat > gasCutoff positions := by
  have hnil : landings positions species radius bins footprint = [] ↔
      ∀ p ∈ positions, p.y.toFloat > gasCutoff positions := by
    rw [landings_eq_map, List.map_eq_nil_iff, survivors_eq_nil_iff]
  rw [compute_eq, ← hnil]
  constructor
  · intro h
    by_contra hnot
    rw [if_neg (by tauto)] at h
    cases h
  · rintro (rfl | h)
    · exact if_pos (.inr (.inr rfl))
    · exact if_pos h

/-- A map is that of the landings, on a grid whose cells can be counted. -/
theorem of_compute (h : compute positions species radius bins footprint = some map) :
    0 < bins ∧ bins * bins < UInt64.size ∧
      map = ofLandings bins (landings positions species radius bins footprint) := by
  rw [compute_eq] at h
  split at h
  · cases h
  · next hsome =>
    simp only [not_or, Nat.not_le] at hsome
    exact ⟨Nat.pos_of_ne_zero hsome.1, hsome.2.1, (Option.some.inj h).symm⟩

/-- **The bin of a scaled coordinate**: one of the grid, and the remainder of the whole number that
the coordinate is cut down to. -/
structure Binned (scaled : Float) (bins bin : ℕ) : Prop where
  /-- The bin is one of the grid. -/
  lt : bin < bins
  /-- It is a remainder. -/
  eq_emod : (bin : ℤ) = (Binary.ofFloat scaled).cut % bins

/-- **A map that stays on its grid.** -/
structure OnGrid (positions : List Position) (species : List UInt8) (radius : UInt8 → Single)
    (bins : ℕ) (footprint : Footprint) (map : HeightMap) : Prop where
  /-- The number of bins is the same as a word with a sign, and remainders are taken by a positive
  number. -/
  divisor : (UInt64.ofNat bins).toInt64.toInt = bins ∧ 0 < bins
  /-- There is a height for each pair of bins, and they can be counted. -/
  size : map.heights.size = bins * bins ∧ bins * bins < UInt64.size
  /-- A survivor falls into a bin in either direction. -/
  binned : ∀ particle ∈ survivors positions species,
    Binned (particle.1.x.toFloat * (natFloat bins / footprint.lx.toFloat)) bins
        (binX bins footprint particle) ∧
      Binned (particle.1.z.toFloat * (natFloat bins / footprint.lz.toFloat)) bins
        (binZ bins footprint particle)
  /-- The survivors land in the cells of their bins. -/
  landings_eq : landings positions species radius bins footprint =
    (survivors positions species).map fun particle =>
      (binX bins footprint particle * bins + binZ bins footprint particle, top radius particle)
  /-- No landing is outside the grid. -/
  landing_lt : ∀ landing ∈ landings positions species radius bins footprint,
    landing.1 < map.heights.size
  /-- The map can be read at the pairs of bins, and nowhere else. -/
  readable_iff : ∀ bx bz, (map.height? bx bz).isSome = true ↔ bx < bins ∧ bz < bins
  /-- Each height is read at one pair of bins. -/
  read_once : ∀ i < map.heights.size, ∃! pair : ℕ × ℕ,
    (map.height? pair.1 pair.2).isSome = true ∧ pair.1 * bins + pair.2 = i
  /-- And it is this height that is read there. -/
  read_eq : ∀ bx < bins, ∀ bz < bins, map.height? bx bz = map.heights[bx * bins + bz]?

/-- **Binning never leaves the grid**, whatever the particles, their radii, the footprint and the
number of bins. There is no map exactly if there are no particles, there are no bins, the cells
cannot be counted with 64 bits, or every particle is above the cutoff; and otherwise the map stays
on its grid. -/
theorem stays_on_grid (positions : List Position) (species : List UInt8) (radius : UInt8 → Single)
    (bins : ℕ) (footprint : Footprint) :
    (compute positions species radius bins footprint = none ↔
      positions = [] ∨ bins = 0 ∨ UInt64.size ≤ bins * bins ∨
        ∀ p ∈ positions, p.y.toFloat > gasCutoff positions) ∧
    ∀ map, compute positions species radius bins footprint = some map →
      OnGrid positions species radius bins footprint map := by
  refine ⟨compute_eq_none_iff, fun map h => ?_⟩
  obtain ⟨hpos, hcounted, rfl⟩ := of_compute h
  refine ⟨⟨toInt64_bins hcounted, hpos⟩, ⟨size_heights _ _, hcounted⟩, fun particle _ => ?_,
    landings_eq_map _ _ _ _ _, fun landing hlanding => ?_, fun bx bz => isSome_height?_iff _,
    fun i hi => ?_, fun bx hx bz hz => height?_ofLandings _ hx hz⟩
  · exact ⟨⟨periodicBin_lt _ hpos, natCast_periodicBin _ hpos⟩,
      ⟨periodicBin_lt _ hpos, natCast_periodicBin _ hpos⟩⟩
  · rw [landings_eq_map] at hlanding
    obtain ⟨particle, -, rfl⟩ := List.mem_map.mp hlanding
    rw [size_heights]
    exact index_lt (periodicBin_lt _ hpos) (periodicBin_lt _ hpos)
  · rw [size_heights] at hi
    simpa only [isSome_height?_iff, and_assoc] using existsUnique_index hi

/-- A footprint of no length in one direction and of a length that is no number in the other. Along
the first, what lies on either side goes to the bin of the last whole number on that side, and what
lies at zero goes to the first bin, as everything does along the second. The map of six bins is read
where the particles are and not beyond; and with so many bins that their cells cannot be counted
there is none. -/
theorem stays_on_grid_of_noFootprint :
    ∃ (one two three nan : Single) (positions : List Position) (footprint : Footprint)
      (map : HeightMap),
      one = ⟨0x3f800000⟩ ∧ two = ⟨0x40000000⟩ ∧ three = ⟨0x40400000⟩ ∧ nan.isNaN = true ∧
      positions = [⟨one, one, one⟩, ⟨⟨0xbf800000⟩, two, one⟩, ⟨.zero, three, one⟩] ∧
      footprint = ⟨.zero, nan⟩ ∧
      compute positions [] (fun _ => .zero) 6 footprint = some map ∧
      (survivors positions []).map (binX 6 footprint) = [1, 4, 0] ∧
      (survivors positions []).map (binZ 6 footprint) = [0, 0, 0] ∧
      OnGrid positions [] (fun _ => .zero) 6 footprint map ∧
      map.height? 1 0 = some one ∧ map.height? 4 0 = some two ∧ map.height? 0 0 = some three ∧
      map.height? 6 0 = none ∧
      compute positions [] (fun _ => .zero) (2 ^ 32) footprint = none := by
  let one : Single := ⟨0x3f800000⟩
  let two : Single := ⟨0x40000000⟩
  let three : Single := ⟨0x40400000⟩
  let nan : Single := ⟨0x7fc00000⟩
  let positions : List Position :=
    [⟨one, one, one⟩, ⟨⟨0xbf800000⟩, two, one⟩, ⟨.zero, three, one⟩]
  let footprint : Footprint := ⟨.zero, nan⟩
  let radius : UInt8 → Single := fun _ => .zero
  have hheights : (compute positions [] radius 6 footprint).map (fun map =>
      (map.height? 1 0, map.height? 4 0, map.height? 0 0)) =
        some (some one, some two, some three) := by decide +kernel
  obtain ⟨map, hmap, hread⟩ := Option.map_eq_some_iff.mp hheights
  obtain ⟨hone, htwo, hthree⟩ := (Prod.mk.inj hread).imp_right Prod.mk.inj
  have grid := (stays_on_grid positions [] radius 6 footprint).2 map hmap
  have hbeyond : map.height? 6 0 = none := by
    rw [← Option.not_isSome_iff_eq_none, grid.readable_iff]
    decide
  have huncounted := (stays_on_grid positions [] radius (2 ^ 32) footprint).1.mpr
    (.inr (.inr (.inl (by decide))))
  exact ⟨one, two, three, nan, positions, footprint, map, rfl, rfl, rfl, by decide, rfl, rfl, hmap,
    by decide +kernel, by decide +kernel, grid, hone, htwo, hthree, hbeyond, huncounted⟩

end HeightMap

end Deposition
