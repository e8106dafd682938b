import Deposition.Archive.Basic
import Deposition.Export.Medium
import Deposition.Log

/-!
# Archiving a job while it runs

Every segment that a job accepts goes into an archive as well, so that the trajectory can be
analysed again later. The archive follows the trajectory as a sink. Its header is written when it
is opened; when a segment cannot be written, the archive says so in the log once and stops.
-/

namespace Deposition

/-- An archive that is being written. -/
structure ArchiveExport where
  /-- What it writes to. -/
  medium : Medium
  /-- Whether it still writes. -/
  live : Bool := true
  /-- How many segments it has written. -/
  segments : Nat := 0
  /-- How it compresses. -/
  compress : Bytes → Bytes := Lz4.compress

namespace ArchiveExport

/-- Opens an archive by writing its header, for a choice of how to compress. -/
def startUsing (compress : Bytes → Bytes) (medium : Medium) : Except IoError ArchiveExport :=
  match medium.write Archive.header with
  | (medium, none) => .ok { medium, compress }
  | (_, some error) => .error error

/-- Opens an archive by writing its header. -/
def start (medium : Medium) : Except IoError ArchiveExport := startUsing Lz4.compress medium

/-- Writes one segment and flushes. -/
def write (a : ArchiveExport) (id : UInt32) (species : Bytes) (frames : List Frame) :
    Medium × Option IoError :=
  match Archive.segmentChunkUsing a.compress id species frames with
  | .error error => (a.medium, some error)
  | .ok chunk => a.medium.writeThrough chunk

/-- The archive hears from its trajectory. -/
def hear (a : ArchiveExport) : SinkCall → ArchiveExport × List Log.Entry
  | .segment id species frames =>
    if !a.live then (a, [])
    else
      match a.write id species frames with
      | (medium, none) => ({ a with medium, segments := a.segments + 1 }, [])
      | (medium, some error) =>
        ({ a with medium, live := false },
          [Log.warn (s!"archive stopped at segment {id.toNat}: " ++ error.message)])
  | .released =>
    if !a.live then (a, [])
    else
      let closed := Log.debug "archive closed" [("segments", .number a.segments)]
      match a.medium.flush with
      | (medium, none) => ({ a with medium, live := false }, [closed])
      | (medium, some error) =>
        ({ a with medium, live := false },
          [Log.warn ("archive flush failed: " ++ error.message), closed])

end ArchiveExport

end Deposition
