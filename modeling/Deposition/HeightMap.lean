import Deposition.Frame
import Deposition.Json.Value
import Deposition.Species

/-!
# The height map of a film

The surface of a deposited film is measured on a grid. The substrate is periodic in both horizontal
directions; a grid of `bins × bins` cells covers one period, and every particle falls into a cell by
its horizontal coordinates. A cell's height is the greatest top – height plus radius – of the
particles in it, or zero if there is none above zero. From the heights come their mean and the
*roughness*, their standard deviation; the lowest top of all gives the film a floor.

Particles far above the film are still in the gas and do not count: those higher than five times the
mean height of all particles.

Sums and products are in double precision, tops and stored heights in single precision. Between the
two stands a list, `Deposition.HeightMap.landings`: the cell and the top of each particle that
counts. Everything after it is a fold over that list.
-/

namespace Deposition

/-- One period of the substrate, in nanometres. -/
structure Footprint where
  /-- Its length along `x`. -/
  lx : Single
  /-- Its length along `z`. -/
  lz : Single

/-- The graphene substrate of the simulations. -/
def Footprint.substrate : Footprint :=
  { lx := (Single.ofNat 39352).div (Single.ofNat 10000)
    lz := (Single.ofNat 42600).div (Single.ofNat 10000) }

/-- The surface of a film. -/
structure HeightMap where
  /-- Cells along each direction. -/
  bins : Nat
  /-- The height of each cell; the cells of one `x` lie together. -/
  heights : Array Single
  /-- The mean of the heights. -/
  mean : Single
  /-- The lowest top of a particle that counts. -/
  lowestTop : Single
  /-- The standard deviation of the heights. -/
  roughness : Single
deriving DecidableEq

namespace HeightMap

/-- A whole number in double precision. -/
def natFloat (n : Nat) : Float := n.toUInt64.toFloat

/-- The sum of some numbers, in order. -/
def sum (xs : List Float) : Float := xs.foldl (· + ·) 0.0

/-- The least and the greatest integer of 64 bits with a sign. -/
def clampInt64 (i : Int) : Int := max Int64.minValue.toInt (min i Int64.maxValue.toInt)

/-- The integer below a number, within 64 bits; zero for what is no number. -/
def floorInt64 (x : Float) : Int :=
  match Binary.ofFloat x with
  | .nan => 0
  | .infinite negative => if negative then Int64.minValue.toInt else Int64.maxValue.toInt
  | .finite negative m q => clampInt64 (Binary.Value.floor negative m q)

/-- The cell of a scaled coordinate, the grid being periodic. -/
def periodicBin (scaled : Float) (bins : Nat) : Nat := (floorInt64 scaled % bins).toNat

/-- The height above which a particle is in the gas: five times the mean height. -/
def gasCutoff (positions : List Position) : Float :=
  sum (positions.map fun p => p.y.toFloat) / natFloat positions.length * 5.0

/-- The cell and the top of each particle at or below the cutoff. A particle without a species has
no radius. -/
def landingsFrom (cutoff scaleX scaleZ : Float) (bins : Nat) (radius : UInt8 → Single) :
    List Position → List UInt8 → List (Nat × Single)
  | [], _ => []
  | p :: positions, species =>
    let rest := landingsFrom cutoff scaleX scaleZ bins radius positions species.tail
    if p.y.toFloat > cutoff then rest
    else
      let bx := periodicBin (p.x.toFloat * scaleX) bins
      let bz := periodicBin (p.z.toFloat * scaleZ) bins
      let r := (species.head?.map radius).getD .zero
      (bx * bins + bz, p.y.add r) :: rest

/-- The cell and the top of each particle that counts. -/
def landings (positions : List Position) (species : List UInt8) (radius : UInt8 → Single)
    (bins : Nat) (footprint : Footprint) : List (Nat × Single) :=
  landingsFrom (gasCutoff positions) (natFloat bins / footprint.lx.toFloat)
    (natFloat bins / footprint.lz.toFloat) bins radius positions species

/-- The grid with one cell raised to a top, if that is higher. -/
def raise (heights : Array Single) (landing : Nat × Single) : Array Single :=
  heights.modify landing.1 fun h => if h.lt landing.2 then landing.2 else h

/-- The lower of a top and what was lowest before it. -/
def lower (low : Single) (landing : Nat × Single) : Single :=
  if landing.2.lt low then landing.2 else low

/-- The map that landings make. -/
def ofLandings (bins : Nat) (landings : List (Nat × Single)) : HeightMap :=
  let heights := landings.foldl raise (Array.replicate (bins * bins) .zero)
  let values := heights.toList.map Single.toFloat
  let cells := natFloat (bins * bins)
  let mean := sum values / cells
  let deviation := sum (values.map fun h => (h - mean) * (h - mean))
  { bins
    heights
    mean := .ofFloat mean
    lowestTop := landings.foldl lower .greatest
    roughness := .ofFloat (deviation / cells).sqrt }

/-- The height map of some particles. There is none when there are no particles or no cells, when
the cells cannot be counted with 64 bits, or when every particle is in the gas. -/
def compute (positions : List Position) (species : List UInt8) (radius : UInt8 → Single)
    (bins : Nat) (footprint : Footprint) : Option HeightMap :=
  if positions.isEmpty || bins == 0 || UInt64.size ≤ bins * bins then none
  else
    let landings := landings positions species radius bins footprint
    if landings.isEmpty then none else some (ofLandings bins landings)

/-- The height map of a frame over the substrate. -/
def ofFrame (species : List UInt8) (frame : Frame) (bins : Nat) : Option HeightMap :=
  compute frame species Species.radiusNm bins .substrate

/-- The height of a cell. -/
def height? (map : HeightMap) (bx bz : Nat) : Option Single :=
  if map.bins ≤ bx || map.bins ≤ bz then none else map.heights[bx * map.bins + bz]?

/-- The mean height above the lowest top. -/
def filmThickness (map : HeightMap) : Single := map.mean.sub map.lowestTop

/-- The report of a map. -/
def report (map : HeightMap) : Json :=
  .record [("bins", .natural map.bins), ("heights", .array (map.heights.toList.map .single)),
    ("mean", .single map.mean), ("min", .single map.lowestTop),
    ("roughness", .single map.roughness),
    ("film_thickness", .single map.filmThickness)]

end HeightMap

end Deposition
