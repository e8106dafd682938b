import Deposition.Number.Single

/-!
# Frames

A frame is one timestep of a simulation: a position for each particle, in the order of the job's
species list. Positions are held in the axes of a renderer, where `y` points up; the wire has axes
of its own, and `Deposition.Segment` turns one into the other.
-/

namespace Deposition

/-- Where a particle is, `y` pointing up. -/
structure Position where
  /-- First horizontal coordinate. -/
  x : Single
  /-- Height. -/
  y : Single
  /-- Second horizontal coordinate. -/
  z : Single
deriving DecidableEq, Inhabited

/-- Where all three coordinates are zero. -/
def Position.origin : Position := ⟨.zero, .zero, .zero⟩

/-- One timestep: a position per particle. -/
abbrev Frame := List Position

end Deposition
