import Deposition.Bytes.LittleEndian
import Deposition.Frame

/-!
# Segments

The server hands out a trajectory in *segments*, each a run of frames in one buffer:

* three words: the segment's id, its number of frames and its number of particles;
* one byte per particle, its species;
* frame by frame and particle by particle, three single-precision coordinates.

The simulation's axes are a rotation of the renderer's: a position travels as `(z, x, y)`.
`Deposition.Segment.decode` reads a buffer and `Deposition.Segment.encode` writes one. A buffer may
be longer than its segment, and what follows is ignored; it may not be shorter. The four ways in
which it can fail are `Deposition.SegmentError`, and where a buffer has several faults, they are
reported in the order in which that type lists them.
-/

namespace Deposition

/-- A run of frames of one job. -/
structure Segment where
  /-- The place of this segment in its job; the first is 1. -/
  id : UInt32
  /-- The species of each particle. -/
  species : Bytes
  /-- The frames, in time order. -/
  frames : List Frame
deriving DecidableEq

/-- The three words at the front of a segment buffer. -/
structure SegmentHeader where
  /-- The segment's id. -/
  id : UInt32
  /-- How many frames follow. -/
  frameCount : UInt32
  /-- How many particles each frame has. -/
  particleCount : UInt32
deriving DecidableEq

/-- Why a buffer is not a segment. -/
inductive SegmentError
  /-- The buffer ends inside the header. -/
  | truncatedHeader (length : Nat)
  /-- Frames are announced, but no particles to fill them. -/
  | emptyFrames (id frameCount : UInt32)
  /-- The length that the header implies cannot be addressed with 64 bits. -/
  | overflow (id : UInt32)
  /-- The buffer ends before what the header announces. -/
  | truncatedPayload (id : UInt32) (expected actual : Nat)
deriving DecidableEq

/-- What is said about an unreadable buffer. -/
def SegmentError.message : SegmentError → String
  | .truncatedHeader length => s!"segment buffer holds {length} bytes, header needs 12"
  | .truncatedPayload id expected actual =>
    s!"segment {id.toNat} needs {expected} bytes, buffer holds {actual}"
  | .overflow id => s!"segment {id.toNat} declares a payload too large to address"
  | .emptyFrames id frameCount =>
    s!"segment {id.toNat} declares {frameCount.toNat} frames of zero particles"

/-- The number of values of a 64-bit word. -/
def addressLimit : Nat := UInt64.size

/-- A length, if it can be addressed with 64 bits. -/
def addressed? (length : Nat) : Option Nat := if length < addressLimit then some length else none

namespace SegmentHeader

/-- Bytes of a header. -/
def size : Nat := 12

/-- Bytes of a position. -/
def stride : Nat := 12

/-- Reads the header at the front of a buffer, together with what follows it. -/
def take? (buffer : Bytes) : Option (SegmentHeader × Bytes) := do
  let (id, rest) ← Word.take? buffer
  let (frameCount, rest) ← Word.take? rest
  let (particleCount, rest) ← Word.take? rest
  return (⟨id, frameCount, particleCount⟩, rest)

/-- Reads the header at the front of a buffer. -/
def read (buffer : Bytes) : Except SegmentError SegmentHeader :=
  match take? buffer with
  | some (header, _) => .ok header
  | none => .error (.truncatedHeader buffer.length)

/-- The bytes of a header. -/
def toBytes (h : SegmentHeader) : Bytes :=
  Word.toBytes h.id ++ Word.toBytes h.frameCount ++ Word.toBytes h.particleCount

/-- The length of the whole segment, as a number without limit. -/
def byteCount (h : SegmentHeader) : Nat :=
  size + h.particleCount.toNat + stride * h.frameCount.toNat * h.particleCount.toNat

/-- The length of the whole segment, if it can be addressed. Every step of the computation stays
within 64 bits, or there is no length. -/
def encodedLength? (h : SegmentHeader) : Option Nat := do
  let particles := h.particleCount.toNat
  let positions ← addressed? (h.frameCount.toNat * particles)
  let positionBytes ← addressed? (positions * stride)
  let front ← addressed? (size + particles)
  addressed? (front + positionBytes)

/-- **The steps lose nothing**: each of them is a part of the whole, so a step that leaves the 64
bits says that the whole does. -/
theorem encodedLength?_eq (h : SegmentHeader) : h.encodedLength? = addressed? h.byteCount := by
  have hwhole : size + h.particleCount.toNat + h.frameCount.toNat * h.particleCount.toNat * stride =
      h.byteCount := by
    rw [byteCount, Nat.mul_assoc stride, Nat.mul_comm stride]
  have hposition := Nat.le_mul_of_pos_right (h.frameCount.toNat * h.particleCount.toNat)
    (by decide : 0 < stride)
  unfold encodedLength?
  simp only [addressed?, Option.bind_eq_bind]
  split
  · simp only [Option.bind_some]
    split
    · simp only [Option.bind_some]
      split
      · rw [Option.bind_some, hwhole]
      · rw [Option.bind_none, if_neg (by omega)]
    · rw [Option.bind_none, if_neg (by omega)]
  · rw [Option.bind_none, if_neg (by omega)]

end SegmentHeader

namespace Position

/-- The bytes of a position: the simulation's axes are `(z, x, y)`. -/
def toBytes (p : Position) : Bytes :=
  Word.toBytes p.z.bits ++ Word.toBytes p.x.bits ++ Word.toBytes p.y.bits

/-- The position at the front of a run of bytes; coordinates that are missing are zero. -/
def ofBytes (bytes : Bytes) : Position :=
  let coordinate offset := ((Word.at? bytes offset).map Single.mk).getD .zero
  { x := coordinate 4, y := coordinate 8, z := coordinate 0 }

end Position

namespace Segment

/-- Number of frames. -/
def frameCount (s : Segment) : Nat := s.frames.length

/-- Number of particles in each frame. -/
def particleCount (s : Segment) : Nat := s.species.length

/-- The next `particles` positions of a run of bytes. -/
def readFrame : (particles : Nat) → Bytes → Frame
  | 0, _ => []
  | particles + 1, bytes =>
    Position.ofBytes bytes :: readFrame particles (bytes.drop SegmentHeader.stride)

/-- The next `count` frames of a run of bytes. -/
def readFrames (particles : Nat) : (count : Nat) → Bytes → List Frame
  | 0, _ => []
  | count + 1, bytes =>
    readFrame particles bytes ::
      readFrames particles count (bytes.drop (particles * SegmentHeader.stride))

/-- Reads a segment buffer. -/
def decode (buffer : Bytes) : Except SegmentError Segment :=
  match SegmentHeader.take? buffer with
  | none => .error (.truncatedHeader buffer.length)
  | some (header, rest) =>
    if header.particleCount = 0 ∧ 0 < header.frameCount then
      .error (.emptyFrames header.id header.frameCount)
    else
      match header.encodedLength? with
      | none => .error (.overflow header.id)
      | some expected =>
        if buffer.length < expected then
          .error (.truncatedPayload header.id expected buffer.length)
        else
          let particles := header.particleCount.toNat
          .ok {
            id := header.id
            species := rest.take particles
            frames := readFrames particles header.frameCount.toNat (rest.drop particles) }

/-- A frame with exactly `particles` positions: further ones are dropped, missing ones are at the
origin. -/
def fitFrame (particles : Nat) (frame : Frame) : Frame :=
  frame.take particles ++ List.replicate (particles - frame.length) .origin

/-- Writes a segment buffer. Each frame is fitted to the species list. -/
def encode (id : UInt32) (species : Bytes) (frames : List Frame) : Bytes :=
  let header : SegmentHeader :=
    ⟨id, UInt32.ofNat frames.length, UInt32.ofNat species.length⟩
  header.toBytes ++ species ++
    frames.flatMap fun frame => (fitFrame species.length frame).flatMap Position.toBytes

end Segment

end Deposition
