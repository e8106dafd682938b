import Deposition.Proofs.HeightMap.Grid
import Deposition.Segment

/-!
# What a height map says of the tops

A height map is meant to be the upper envelope of a film: a cell that particles have landed in has
the height of the highest top there, and the lowest top of all is the floor. Both are folds that
have to start somewhere, and nothing tells afterwards whether the start is still there. The cells
start at the ground, and the floor at the greatest number.

So a fold says what it is meant to say if there is a top that its start does not beat, and only then
(`Deposition.HeightMap.exists_key_best_iff`). For a cell this is a top that is not below the ground,
and a cell whose tops all lie below it has the height of the ground, as if nothing had landed there
(`Deposition.HeightMap.envelope_iff_reaches_ground`). For the floor it is a top that is a number and
not above the greatest one; where there is none, the floor of the film is the greatest number, and
the thickness is measured from it (`Deposition.HeightMap.lowest_is_top_iff_bounded`). A height can
be anything that a segment carries, so a film that is nowhere a number has such a floor.
-/

namespace Deposition

namespace HeightMap

/-! ### What a fold keeps of its start -/

section

variable {better : Single → Single → Bool} {key : Single → Option ℤ} {start : Single} {x₀ : ℤ}
  {tops : List Single}

/-- **The best is one of the tops** exactly if there is a top that the start does not beat. -/
theorem exists_key_best_iff (h : Follows better key) (hstart : key start = some x₀) :
    (∃ top ∈ tops, key top = key (best better start tops)) ↔
      ∃ top ∈ tops, ∃ y, key top = some y ∧ x₀ ≤ y := by
  obtain ⟨x, hx, hle, horigin, hbound⟩ := best_spec h hstart tops
  rw [hx]
  constructor
  · rintro ⟨top, htop, hkey⟩
    exact ⟨top, htop, x, hkey, hle⟩
  · rintro ⟨top, htop, y, hkey, hy⟩
    rcases horigin with horigin | ⟨-, hmem⟩
    · -- nothing has beaten the start, so the top is as good as the start
      rw [horigin, hstart, Option.some.injEq] at hx
      have hyx := hbound top htop y hkey
      exact ⟨top, htop, hkey.trans (congrArg some (by omega))⟩
    · exact ⟨_, hmem, hx⟩

/-- The start is kept if it beats every top. -/
theorem best_eq_start (h : Follows better key) (hstart : key start = some x₀)
    (hnone : ¬ ∃ top ∈ tops, ∃ y, key top = some y ∧ x₀ ≤ y) : best better start tops = start := by
  obtain ⟨x, hx, hle, horigin, -⟩ := best_spec h hstart tops
  rcases horigin with horigin | ⟨-, hmem⟩
  · exact horigin
  · exact absurd ⟨_, hmem, x, hx, hle⟩ hnone

end

variable {tops : List Single} {h : Single}

/-- **The highest of some tops**: the number of one of them, above which none of them lies. -/
structure IsHighest (h : Single) (tops : List Single) : Prop where
  /-- It is the number of a top. -/
  reached : ∃ top ∈ tops, top.rank = h.rank
  /-- It is a number. -/
  isNaN_eq : h.isNaN = false
  /-- No top lies above it. -/
  not_lt : ∀ top ∈ tops, h.lt top = false

/-- The ranks of the tops that are not below the ground. -/
theorem zero_atMost_iff {t : Single} :
    Single.zero.AtMost t ↔ ∃ y, t.rank = some y ∧ 0 ≤ y := by
  have hzero : Single.zero.rank = some 0 := rfl
  simp [Single.atMost_iff, hzero]

/-- **What a fold over tops finds** is the highest of them exactly if one of them is not below the
ground. -/
theorem isHighest_highest_iff :
    IsHighest (highest .zero tops) tops ↔ ∃ top ∈ tops, Single.zero.AtMost top := by
  have hzero : Single.zero.rank = some 0 := rfl
  simp only [zero_atMost_iff]
  rw [← exists_key_best_iff follows_rank hzero]
  constructor
  · exact fun highest => highest.reached
  · intro reached
    obtain ⟨x, hx, -, -, hbound⟩ := best_spec follows_rank hzero tops
    refine ⟨reached, Single.isNaN_eq_false_iff.mpr ⟨x, hx⟩, fun top htop => ?_⟩
    by_contra hlt
    obtain ⟨x', y, hx', hy, hlt⟩ := Single.lt_iff.mp (by simpa using hlt)
    obtain rfl : x = x' := Option.some.inj (hx.symm.trans hx')
    have hle := hbound top htop y hy
    omega

/-- Tops that are all below the ground leave the ground. -/
theorem highest_eq_zero (hnone : ¬ ∃ top ∈ tops, Single.zero.AtMost top) :
    highest .zero tops = .zero := by
  simp only [zero_atMost_iff] at hnone
  exact best_eq_start follows_rank rfl hnone

theorem depth_greatest : depth .greatest = some (-0x7f7fffff) := rfl

/-- The depths of the tops that are not above the greatest number. -/
theorem atMost_greatest_iff {t : Single} :
    t.AtMost .greatest ↔ ∃ y, depth t = some y ∧ -0x7f7fffff ≤ y := by
  have hgreatest : Single.greatest.rank = some 0x7f7fffff := rfl
  rw [Single.atMost_iff]
  constructor
  · rintro ⟨x, y, hx, hy, hle⟩
    obtain rfl : 0x7f7fffff = y := Option.some.inj (hgreatest.symm.trans hy)
    exact ⟨-x, by rw [depth, hx]; rfl, by omega⟩
  · rintro ⟨y, hy, hle⟩
    obtain ⟨x, hx, rfl⟩ := Option.map_eq_some_iff.mp hy
    exact ⟨x, _, hx, hgreatest, by omega⟩

/-- **The lowest top that a fold finds** is one of the tops exactly if one of them is a number that
is not above the greatest one. -/
theorem lowest_mem_iff :
    lowest .greatest tops ∈ tops ↔ ∃ top ∈ tops, top.AtMost .greatest := by
  simp only [atMost_greatest_iff]
  obtain ⟨x, hx, hle, horigin, -⟩ := best_spec follows_depth depth_greatest tops
  constructor
  · exact fun hmem => ⟨_, hmem, x, hx, hle⟩
  · intro hsome
    obtain ⟨top, htop, hkey⟩ := (exists_key_best_iff follows_depth depth_greatest).mpr hsome
    rcases horigin with horigin | ⟨-, hmem⟩
    · -- the greatest number has one pattern, so the top that equals it is this pattern
      rw [horigin, depth_greatest] at hkey
      obtain ⟨y, hy, hneg⟩ := Option.map_eq_some_iff.mp hkey
      obtain rfl : y = 0x7f7fffff := by omega
      have heq : lowest .greatest tops = top :=
        horigin.trans (Single.eq_of_rank_eq rfl hy (by decide))
      rwa [heq]
    · exact hmem

/-- Tops that are no numbers, or above the greatest one, leave the greatest one. -/
theorem lowest_eq_greatest (hnone : ¬ ∃ top ∈ tops, top.AtMost .greatest) :
    lowest .greatest tops = .greatest := by
  simp only [atMost_greatest_iff] at hnone
  exact best_eq_start follows_depth depth_greatest hnone

/-- No top lies below the lowest one. -/
theorem not_lt_lowest : ∀ top ∈ tops, top.lt (lowest .greatest tops) = false := by
  intro top htop
  obtain ⟨x, hx, -, -, hbound⟩ := best_spec follows_depth depth_greatest tops
  obtain ⟨l, hl, hlx⟩ := Option.map_eq_some_iff.mp hx
  by_contra hlt
  obtain ⟨y, l', hy, hl', hlt⟩ := Single.lt_iff.mp (by simpa using hlt)
  obtain rfl : l = l' := Option.some.inj (hl.symm.trans hl')
  have hle := hbound top htop (-y) (by rw [depth, hy]; rfl)
  omega

/-! ### The tops of a film -/

variable {positions : List Position} {species : List UInt8} {radius : UInt8 → Single}
  {bins : ℕ} {footprint : Footprint} {map : HeightMap}

/-- The tops of the particles that have landed in a cell. -/
def topsAt (positions : List Position) (species : List UInt8) (radius : UInt8 → Single)
    (bins : ℕ) (footprint : Footprint) (c : ℕ) : List Single :=
  ((survivors positions species).filter fun particle => cell bins footprint particle == c).map
    (top radius)

theorem topsIn_landings (c : ℕ) :
    topsIn c (landings positions species radius bins footprint) =
      topsAt positions species radius bins footprint c := by
  rw [topsIn, topsAt, landings_eq_map, List.filter_map, List.map_map]
  rfl

/-- **A map is the upper envelope of a film in the cells that reach the ground**, and in no others.
Whatever the particles, their radii and the footprint: a cell that no particle has landed in has
height zero; a cell that some have landed in has the height of the highest top there exactly if one
of the tops is not below zero; and if all of them are, its height is zero. -/
theorem envelope_iff_reaches_ground
    (hmap : compute positions species radius bins footprint = some map) (c : ℕ)
    (hc : c < bins * bins) :
    ∃ height, map.heights[c]? = some height ∧
      (topsAt positions species radius bins footprint c = [] → height = .zero) ∧
      (IsHighest height (topsAt positions species radius bins footprint c) ↔
        ∃ top ∈ topsAt positions species radius bins footprint c, Single.zero.AtMost top) ∧
      ((¬ ∃ top ∈ topsAt positions species radius bins footprint c, Single.zero.AtMost top) →
        height = .zero) := by
  obtain ⟨-, -, rfl⟩ := of_compute hmap
  refine ⟨_, (getElem?_heights bins _ c).trans (if_pos hc), ?_⟩
  rw [topsIn_landings]
  refine ⟨fun hnil => ?_, isHighest_highest_iff, highest_eq_zero⟩
  rw [hnil]
  rfl

/-- A film of two particles, one of which lies below the ground. Where the other one is, the map has
its top; where this one is, the map has the ground, which is not the highest top there. -/
theorem envelope_iff_reaches_ground_of_two :
    ∃ (low high : Single) (positions : List Position) (radius : UInt8 → Single) (map : HeightMap),
      low = ⟨0xbf800000⟩ ∧ high = ⟨0x40400000⟩ ∧
      positions = [⟨.zero, low, .zero⟩, ⟨⟨0x40000000⟩, high, .zero⟩] ∧
      compute positions [0, 0] radius 2 .substrate = some map ∧
      topsAt positions [0, 0] radius 2 .substrate 0 = [low] ∧
      topsAt positions [0, 0] radius 2 .substrate 2 = [high] ∧
      (∃ height, map.heights[0]? = some height ∧ height = .zero ∧ ¬ IsHighest height [low]) ∧
      ∃ height, map.heights[2]? = some height ∧ IsHighest height [high] := by
  let low : Single := ⟨0xbf800000⟩
  let high : Single := ⟨0x40400000⟩
  let positions : List Position := [⟨.zero, low, .zero⟩, ⟨⟨0x40000000⟩, high, .zero⟩]
  let radius : UInt8 → Single := fun _ => .zero
  obtain ⟨map, hmap⟩ : ∃ map, compute positions [0, 0] radius 2 .substrate = some map :=
    Option.isSome_iff_exists.mp (by decide +kernel)
  have hlow : topsAt positions [0, 0] radius 2 .substrate 0 = [low] := by decide +kernel
  have hhigh : topsAt positions [0, 0] radius 2 .substrate 2 = [high] := by decide +kernel
  obtain ⟨ground, hground, -, hiff, hzero⟩ := envelope_iff_reaches_ground hmap 0 (by decide)
  obtain ⟨height, hheight, -, hiff', -⟩ := envelope_iff_reaches_ground hmap 2 (by decide)
  rw [hlow] at hiff hzero
  rw [hhigh] at hiff'
  have hbelow : ¬ ∃ top ∈ [low], Single.zero.AtMost top := by decide
  exact ⟨low, high, positions, radius, map, rfl, rfl, rfl, hmap, hlow, hhigh,
    ⟨ground, hground, hzero hbelow, fun highest => hbelow (hiff.mp highest)⟩,
    height, hheight, hiff'.mpr (by decide)⟩

/-- **A film that reaches below the ground has another envelope than its map.** All numbers are
finite, and the substrate is the usual one; a particle has landed in the first cell with its top at
`-1`, and the height there is zero. -/
theorem raised_where_below_ground :
    ∃ (positions : List Position) (radius : UInt8 → Single) (map : HeightMap) (height : Single),
      positions = [⟨.zero, ⟨0xbf800000⟩, .zero⟩, ⟨⟨0x40000000⟩, ⟨0x40400000⟩, .zero⟩] ∧
      radius = (fun _ => .zero) ∧
      (∀ p ∈ positions, p.x.value.isFinite = true ∧ p.y.value.isFinite = true ∧
        p.z.value.isFinite = true) ∧
      (∀ species, (radius species).value.isFinite = true) ∧
      compute positions [0, 0] radius 2 .substrate = some map ∧
      topsAt positions [0, 0] radius 2 .substrate 0 = [⟨0xbf800000⟩] ∧
      map.heights[0]? = some height ∧ height = .zero ∧
      ¬ IsHighest height (topsAt positions [0, 0] radius 2 .substrate 0) := by
  let positions : List Position :=
    [⟨.zero, ⟨0xbf800000⟩, .zero⟩, ⟨⟨0x40000000⟩, ⟨0x40400000⟩, .zero⟩]
  let radius : UInt8 → Single := fun _ => .zero
  have hheight : (compute positions [0, 0] radius 2 .substrate).map (fun map => map.heights[0]?) =
      some (some .zero) := by decide +kernel
  obtain ⟨map, hmap, hread⟩ := Option.map_eq_some_iff.mp hheight
  have htops : topsAt positions [0, 0] radius 2 .substrate 0 = [⟨0xbf800000⟩] := by decide +kernel
  refine ⟨positions, radius, map, .zero, rfl, rfl, by decide, fun _ => by decide, hmap, htops,
    hread, rfl, ?_⟩
  rw [htops]
  rintro ⟨⟨top, htop, hrank⟩, -, -⟩
  obtain rfl := List.mem_singleton.mp htop
  exact absurd hrank (by decide)

/-! ### The floor of a film -/

theorem map_snd_landings : (landings positions species radius bins footprint).map Prod.snd =
    (survivors positions species).map (top radius) := by
  rw [landings_eq_map, List.map_map]
  rfl

/-- **The lowest top of a film is the top of a particle if one of the tops is bounded**, and not
otherwise. Whatever the particles, their radii and the footprint: no survivor has a top below the
lowest one; the lowest one is the top of a survivor exactly if some survivor has a top that is a
number and not above the greatest one; and if none has, the lowest top is the greatest number, and
the thickness of the film is computed from it. -/
theorem lowest_is_top_iff_bounded
    (hmap : compute positions species radius bins footprint = some map) :
    (∀ particle ∈ survivors positions species,
      (top radius particle).lt map.lowestTop = false) ∧
    ((∃ particle ∈ survivors positions species, top radius particle = map.lowestTop) ↔
      ∃ particle ∈ survivors positions species, (top radius particle).AtMost .greatest) ∧
    ((¬ ∃ particle ∈ survivors positions species, (top radius particle).AtMost .greatest) →
      map.lowestTop = .greatest ∧ map.filmThickness = map.mean.sub .greatest) := by
  obtain ⟨-, -, rfl⟩ := of_compute hmap
  have hlowest : (ofLandings bins (landings positions species radius bins footprint)).lowestTop =
      lowest .greatest ((survivors positions species).map (top radius)) := by
    rw [lowestTop_eq, map_snd_landings]
  have hbounded : (∃ t ∈ (survivors positions species).map (top radius), t.AtMost .greatest) ↔
      ∃ particle ∈ survivors positions species, (top radius particle).AtMost .greatest := by
    simp
  rw [filmThickness, hlowest, ← hbounded, ← lowest_mem_iff, List.mem_map]
  refine ⟨fun particle hmem => not_lt_lowest _ (List.mem_map_of_mem hmem), Iff.rfl, fun hnone => ?_⟩
  have heq : lowest .greatest ((survivors positions species).map (top radius)) = .greatest := by
    refine lowest_eq_greatest fun hsome => hnone ?_
    exact List.mem_map.mp (lowest_mem_iff.mpr hsome)
  rw [heq]
  exact ⟨rfl, rfl⟩

/-- Two films with a height that is no number, so that nothing is in the gas. One also has a
particle at height one, which is then the lowest top; in the other there is only one that is
infinitely high, and the floor is the greatest number. -/
theorem lowest_is_top_iff_bounded_of_numberless :
    ∃ (one nan infinity : Single) (stand : Single → Position) (radius : UInt8 → Single)
      (map map' : HeightMap),
      one = ⟨0x3f800000⟩ ∧ nan.isNaN = true ∧ infinity.value = .infinite false ∧
      stand = (fun y => ⟨.zero, y, .zero⟩) ∧
      compute ([nan, one].map stand) [] radius 1 .substrate = some map ∧
      compute ([nan, infinity].map stand) [] radius 1 .substrate = some map' ∧
      (survivors ([nan, one].map stand) []).length = 2 ∧
      (∃ particle ∈ survivors ([nan, one].map stand) [], top radius particle = map.lowestTop) ∧
      one.lt map.lowestTop = false ∧
      map'.lowestTop = .greatest ∧ map'.filmThickness = map'.mean.sub .greatest := by
  let one : Single := ⟨0x3f800000⟩
  let nan : Single := ⟨0x7fc00000⟩
  let infinity : Single := ⟨0x7f800000⟩
  let stand : Single → Position := fun y => ⟨.zero, y, .zero⟩
  let radius : UInt8 → Single := fun _ => .zero
  obtain ⟨map, hmap⟩ : ∃ map, compute ([nan, one].map stand) [] radius 1 .substrate = some map :=
    Option.isSome_iff_exists.mp (by decide +kernel)
  obtain ⟨map', hmap'⟩ :
      ∃ map, compute ([nan, infinity].map stand) [] radius 1 .substrate = some map :=
    Option.isSome_iff_exists.mp (by decide +kernel)
  obtain ⟨hnone, hiff, -⟩ := lowest_is_top_iff_bounded hmap
  obtain ⟨-, -, hgreatest⟩ := lowest_is_top_iff_bounded hmap'
  have hone : (stand one, none) ∈ survivors ([nan, one].map stand) [] := by decide +kernel
  have htop : top radius (stand one, none) = one := by decide +kernel
  have hbounded : (top radius (stand one, none)).AtMost .greatest := by
    rw [htop]
    decide
  obtain ⟨hlowest, hthickness⟩ := hgreatest (by decide +kernel)
  exact ⟨one, nan, infinity, stand, radius, map, map', rfl, by decide, by decide, rfl, hmap, hmap',
    by decide +kernel, hiff.mpr ⟨_, hone, hbounded⟩, htop ▸ hnone _ hone, hlowest, hthickness⟩

/-- **A film that is nowhere a number has no lowest top.** A segment can carry a height that is no
number, and a frame of one such particle has a map; its lowest top is the greatest number, which is
not the top of the particle, and its thickness is the opposite of that. -/
theorem floor_without_top :
    ∃ (buffer : Bytes) (frame : Frame) (map : HeightMap),
      frame = [⟨.zero, ⟨0x7fc00000⟩, .zero⟩] ∧
      Segment.decode buffer = .ok ⟨1, [7], [frame]⟩ ∧
      (Species.radiusNm 7).value.isFinite = true ∧
      ofFrame [7] frame 1 = some map ∧ (survivors frame [7]).length = 1 ∧
      (∀ particle ∈ survivors frame [7], top Species.radiusNm particle ≠ map.lowestTop) ∧
      map.lowestTop = .greatest ∧ map.filmThickness = ⟨0xff7fffff⟩ := by
  let frame : Frame := [⟨.zero, ⟨0x7fc00000⟩, .zero⟩]
  obtain ⟨buffer, hdecode⟩ : ∃ buffer, Segment.decode buffer = .ok ⟨1, [7], [frame]⟩ :=
    ⟨Segment.encode 1 [7] [[⟨.zero, ⟨0x7fc00000⟩, .zero⟩]], rfl⟩
  have hread : (ofFrame [7] frame 1).map (fun map => (map.lowestTop, map.filmThickness)) =
      some (.greatest, ⟨0xff7fffff⟩) := by decide +kernel
  obtain ⟨map, hmap, hmap'⟩ := Option.map_eq_some_iff.mp hread
  obtain ⟨hlowest, hthickness⟩ := Prod.mk.inj hmap'
  refine ⟨buffer, frame, map, rfl, hdecode, by decide +kernel, hmap, by decide +kernel, ?_, hlowest,
    hthickness⟩
  rw [hlowest]
  decide +kernel

end HeightMap

end Deposition
