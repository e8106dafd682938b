import Deposition.Segment

/-!
# The trajectory of a job

A trajectory grows by whole segments and its frames never change. The first segment fixes the
species of the job; a segment with other species is refused, and then nothing at all has happened.

Whoever wants to follow a trajectory registers as a *sink*. A trajectory does not know what a sink
does with what it is told; it keeps the sinks' names, of whatever type, and every operation says
which sink is told what, as a list of `Deposition.Notice`s in order. A sink hears of each segment
that is appended while it is registered, and at the end once that it is released.
-/

namespace Deposition

/-- A frame that is kept for analysis, with the species of its particles. -/
structure AnalysisFrame where
  /-- The species of each particle. -/
  species : Bytes
  /-- The positions. -/
  frame : Frame
deriving DecidableEq

/-- What a sink is told. -/
inductive SinkCall
  /-- These frames were added. -/
  | segment (id : UInt32) (species : Bytes) (frames : List Frame)
  /-- Nothing more will come. -/
  | released
deriving DecidableEq

/-- A call to one sink. -/
structure Notice (σ : Type) where
  /-- The sink. -/
  sink : σ
  /-- What it is told. -/
  call : SinkCall
deriving DecidableEq

/-- Why a segment does not belong to a job. -/
inductive TrajectoryError
  /-- It has another number of particles. -/
  | particleCountMismatch (id : UInt32) (expected got : Nat)
  /-- It has other species. -/
  | speciesMismatch (id : UInt32)
deriving DecidableEq

/-- What is said about a segment that does not belong. -/
def TrajectoryError.message : TrajectoryError → String
  | .particleCountMismatch id expected got =>
    s!"segment {id.toNat} carries {got} particles, job has {expected}"
  | .speciesMismatch id => s!"segment {id.toNat} species differ from the job's species"

/-- The frames of a job, and who follows them. -/
structure Trajectory (σ : Type) where
  /-- The species of each particle, once the first segment has said so. -/
  species : Option Bytes := none
  /-- The frames, in time order. -/
  frames : List Frame := []
  /-- The registered sinks, in the order of registration. -/
  sinks : List σ := []

namespace Trajectory

variable {σ : Type}

/-- Number of particles in each frame; none before the first segment. -/
def particleCount (t : Trajectory σ) : Nat := (t.species.map List.length).getD 0

/-- Registers a sink after the others. -/
def register (t : Trajectory σ) (sink : σ) : Trajectory σ := { t with sinks := t.sinks ++ [sink] }

/-- Why a segment cannot be appended, if it cannot. -/
def mismatch? (t : Trajectory σ) (s : Segment) : Option TrajectoryError :=
  match t.species with
  | none => none
  | some species =>
    if species.length ≠ s.species.length then
      some (.particleCountMismatch s.id species.length s.species.length)
    else if species ≠ s.species then some (.speciesMismatch s.id)
    else none

/-- Appends the frames of a segment and tells every sink. -/
def append (t : Trajectory σ) (s : Segment) :
    Except TrajectoryError (Trajectory σ × List (Notice σ)) :=
  match t.mismatch? s with
  | some error => .error error
  | none =>
    .ok ({ t with species := some s.species, frames := t.frames ++ s.frames },
      t.sinks.map fun sink => ⟨sink, .segment s.id s.species s.frames⟩)

/-- The last frame, if there is one. -/
def lastFrame? (t : Trajectory σ) : Option AnalysisFrame := do
  return ⟨← t.species, ← t.frames.getLast?⟩

/-- Releases every sink and keeps the frames. -/
def releaseSinks (t : Trajectory σ) : Trajectory σ × List (Notice σ) :=
  ({ t with sinks := [] }, t.sinks.map fun sink => ⟨sink, .released⟩)

/-- Releases every sink and drops the frames. -/
def clear (t : Trajectory σ) : Trajectory σ × List (Notice σ) := ({}, t.releaseSinks.2)

/-- The trajectory in a word: how much of everything there is. -/
def summary (t : Trajectory σ) : String :=
  "Trajectory \x7b particles: " ++ toString t.particleCount ++ ", frames: " ++
    toString t.frames.length ++ ", sinks: " ++ toString t.sinks.length ++ " \x7d"

end Trajectory

end Deposition
