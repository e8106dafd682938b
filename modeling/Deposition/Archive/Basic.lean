import Deposition.Archive.Chunk
import Deposition.Trajectory

/-!
# Trajectory archives

An archive keeps the segments of a job in a file: eight bytes that say what the file is, a version,
and one chunk for each segment, which holds the segment as it came from the server. Chunks of other
tags may stand between them and are passed over. A file that ends between two chunks is complete.

Here are the parts of the format and the writing of it; `Deposition.Archive.Reader` reads.
-/

namespace Deposition

namespace Archive

/-- The bytes that begin every archive. -/
def magic : Bytes := [0x44, 0x45, 0x50, 0x4f, 0x54, 0x52, 0x4a, 0x31]

/-- The version of the format. -/
def version : UInt32 := 1

/-- What an archive starts with. -/
def header : Bytes := magic ++ Word.toBytes version

/-- The tag of a chunk that holds a segment. -/
def segmentTag : Bytes := [0x53, 0x45, 0x47, 0x4d]

/-- The chunk of a segment buffer, whatever is in the buffer, for a choice of how to compress. -/
def rawChunkUsing (compress : Bytes → Bytes) (buffer : Bytes) : Except IoError Bytes :=
  Chunk.encodeUsing compress segmentTag buffer

/-- The chunk of a segment buffer, whatever is in the buffer. -/
def rawChunk (buffer : Bytes) : Except IoError Bytes := rawChunkUsing Lz4.compress buffer

/-- The chunk of a segment, for a choice of how to compress. -/
def segmentChunkUsing (compress : Bytes → Bytes) (id : UInt32) (species : Bytes)
    (frames : List Frame) : Except IoError Bytes :=
  rawChunkUsing compress (Segment.encode id species frames)

/-- The chunk of a segment. -/
def segmentChunk (id : UInt32) (species : Bytes) (frames : List Frame) : Except IoError Bytes :=
  segmentChunkUsing Lz4.compress id species frames

end Archive

/-- Why an archive cannot be read. -/
inductive ArchiveError
  /-- The file is something else. -/
  | badMagic
  /-- The file has a version that this program does not know. -/
  | unsupportedVersion (version : UInt32)
  /-- The file cannot be read to its end. -/
  | io (error : IoError)
  /-- A chunk holds no segment; chunks of every tag are counted, from 0. -/
  | codec (chunk : Nat) (error : SegmentError)
  /-- Two segments belong to different jobs. -/
  | trajectory (error : TrajectoryError)
deriving DecidableEq

/-- What is said about an unreadable archive. -/
def ArchiveError.message : ArchiveError → String
  | .badMagic => "not a trajectory archive"
  | .unsupportedVersion version => s!"unsupported archive version {version.toNat}"
  | .io error => "archive I/O: " ++ error.message
  | .codec chunk error => s!"chunk {chunk}: " ++ error.message
  | .trajectory error => error.message

end Deposition
