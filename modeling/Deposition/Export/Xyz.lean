import Deposition.Export.Medium
import Deposition.Log
import Deposition.Number.Layout
import Deposition.Species
import Deposition.Text.Utf8
import Deposition.Trajectory

/-!
# XYZ text

The XYZ format is what most viewers of molecules read: for each frame a block of lines, the number
of particles, a comment, and then for each particle its symbol and its coordinates in ångström. The
comment numbers the frame, counting from 0 over the whole job, and names the segment that it came
in.

The export follows a trajectory as a sink. It cannot hold up the download: when writing fails, it
says so in the log once and writes nothing more.
-/

namespace Deposition

namespace Xyz

/-- A coordinate in ångström. -/
def coordinate (x : Single) : String := (x.mul .ten).fixedText 4

/-- The line of one particle. -/
def particleLine (species : UInt8) (p : Position) : String :=
  Species.symbol species ++ " " ++ coordinate p.x ++ " " ++ coordinate p.y ++ " " ++
    coordinate p.z ++ "\n"

/-- The block of one frame. -/
def block (index : Nat) (id : UInt32) (species : Bytes) (frame : Frame) : String :=
  toString species.length ++ "\nframe " ++ toString index ++ " segment " ++ toString id.toNat ++
    "\n" ++ String.join ((species.zip frame).map fun (s, p) => particleLine s p)

/-- The blocks of some frames, of which the first has the given number. -/
def blocks (id : UInt32) (species : Bytes) : (first : Nat) → List Frame → List String
  | _, [] => []
  | first, frame :: frames => block first id species frame :: blocks id species (first + 1) frames

/-- The bytes for one segment. -/
def segmentBytes (first : Nat) (id : UInt32) (species : Bytes) (frames : List Frame) : Bytes :=
  Utf8.encode (String.join (blocks id species first frames))

end Xyz

/-- An export to XYZ text. -/
structure XyzExport where
  /-- What it writes to. -/
  medium : Medium
  /-- Whether it still writes. -/
  live : Bool := true
  /-- How many frames it has written. -/
  frames : Nat := 0

namespace XyzExport

/-- The export hears from its trajectory. Segments are written and flushed; a release flushes once
more and closes. -/
def hear (x : XyzExport) : SinkCall → XyzExport × List Log.Entry
  | .segment id species frames =>
    if !x.live then (x, [])
    else
      match x.medium.writeThrough (Xyz.segmentBytes x.frames id species frames) with
      | (medium, none) => ({ x with medium, frames := x.frames + frames.length }, [])
      | (medium, some error) =>
        ({ x with medium, live := false }, [Log.warn ("XYZ export stopped: " ++ error.message)])
  | .released =>
    let closed := Log.debug "XYZ export closed" [("frames", .number x.frames)]
    if !x.live then (x, [closed])
    else
      match x.medium.flush with
      | (medium, none) => ({ x with medium, live := false }, [closed])
      | (medium, some error) =>
        ({ x with medium, live := false },
          [Log.warn ("XYZ export flush failed: " ++ error.message), closed])

end XyzExport

end Deposition
