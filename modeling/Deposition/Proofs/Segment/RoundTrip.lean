import Deposition.Segment
import Mathlib.Data.List.Basic

/-!
# Segments survive the wire

A segment that was read from a buffer can be written again, and what is written reads back as the
same segment, down to the bit patterns of its coordinates. The two buffers need not be the same:
what follows a segment in its buffer is dropped.

Not everything of the type `Deposition.Segment` can be written. A frame may have another length
than the species list, and is then cut or filled up; a segment of no particles may claim to have
frames; a length may exceed its word. `Deposition.Segment.WellFormed` excludes these, and it is
what writing needs (`Deposition.Segment.decode_encode_append`).

Each part of a buffer – word, header, position, frame – comes with both directions: what is written
reads back whatever follows it, and bytes that are long enough are the writing of something. The
second is what `Deposition.Proofs.Segment.Format` builds on.
-/

namespace Deposition

/-! ### Positions -/

namespace Word

/-- A word that starts after the bytes in front of it. -/
theorem at?_append (front : Bytes) (w : UInt32) (rest : Bytes) :
    at? (front ++ (toBytes w ++ rest)) front.length = some w := by
  simp [at?]

/-- Four bytes are a word. -/
theorem exists_eq_toBytes_append (bytes : Bytes) (h : 4 ≤ bytes.length) :
    ∃ w rest, bytes = toBytes w ++ rest := by
  match bytes, h with
  | b₀ :: b₁ :: b₂ :: b₃ :: rest, _ =>
    exact ⟨ofBytes b₀ b₁ b₂ b₃, rest, by rw [toBytes_ofBytes]; rfl⟩

/-- Twelve bytes are three words. -/
theorem exists_eq_three_append {bytes : Bytes} (h : 12 ≤ bytes.length) :
    ∃ u v w rest, bytes = toBytes u ++ toBytes v ++ toBytes w ++ rest := by
  obtain ⟨u, rest, rfl⟩ := exists_eq_toBytes_append bytes (by omega)
  rw [List.length_append, length_toBytes] at h
  obtain ⟨v, rest, rfl⟩ := exists_eq_toBytes_append rest (by omega)
  rw [List.length_append, length_toBytes] at h
  obtain ⟨w, rest, rfl⟩ := exists_eq_toBytes_append rest (by omega)
  exact ⟨u, v, w, rest, by simp⟩

end Word

namespace Position

@[simp] theorem length_toBytes (p : Position) : p.toBytes.length = SegmentHeader.stride := rfl

/-- **A position reads back**, bit by bit, whatever follows it. -/
theorem ofBytes_toBytes_append (p : Position) (rest : Bytes) : ofBytes (p.toBytes ++ rest) = p := by
  have hz := Word.at?_append [] p.z.bits (Word.toBytes p.x.bits ++ (Word.toBytes p.y.bits ++ rest))
  have hx := Word.at?_append (Word.toBytes p.z.bits) p.x.bits (Word.toBytes p.y.bits ++ rest)
  have hy := Word.at?_append (Word.toBytes p.z.bits ++ Word.toBytes p.x.bits) p.y.bits rest
  simp only [List.nil_append, List.length_nil, List.length_append, Word.length_toBytes,
    List.append_assoc] at hx hy hz
  simp only [ofBytes, toBytes, List.append_assoc, hx, hy, hz]
  rfl

/-- Bytes that are long enough are a position. -/
theorem exists_eq_toBytes_append (bytes : Bytes) (h : SegmentHeader.stride ≤ bytes.length) :
    ∃ p rest, bytes = toBytes p ++ rest := by
  obtain ⟨z, x, y, rest, rfl⟩ := Word.exists_eq_three_append h
  exact ⟨⟨⟨x⟩, ⟨y⟩, ⟨z⟩⟩, rest, rfl⟩

end Position

/-! ### Headers -/

namespace SegmentHeader

@[simp] theorem length_toBytes (h : SegmentHeader) : h.toBytes.length = size := rfl

/-- A header reads back. -/
theorem take?_toBytes_append (h : SegmentHeader) (rest : Bytes) :
    take? (h.toBytes ++ rest) = some (h, rest) := by
  simp [take?, toBytes]

/-- What is read as a header is the front of the buffer. -/
theorem eq_of_take?_eq_some {h : SegmentHeader} {buffer rest : Bytes}
    (htake : take? buffer = some (h, rest)) : buffer = h.toBytes ++ rest := by
  simp only [take?, Option.bind_eq_bind, Option.bind_eq_some_iff, Option.pure_def,
    Option.some.injEq, Prod.mk.injEq, Prod.exists] at htake
  obtain ⟨id, rest₁, h₁, frameCount, rest₂, h₂, particleCount, rest₃, h₃, rfl, rfl⟩ := htake
  rw [Word.eq_of_take?_eq_some h₁, Word.eq_of_take?_eq_some h₂, Word.eq_of_take?_eq_some h₃]
  simp [toBytes]

/-- Bytes that are long enough start with a header. -/
theorem exists_eq_toBytes_append {buffer : Bytes} (h : size ≤ buffer.length) :
    ∃ (header : SegmentHeader) (rest : Bytes), buffer = header.toBytes ++ rest := by
  obtain ⟨id, frameCount, particleCount, rest, rfl⟩ := Word.exists_eq_three_append h
  exact ⟨⟨id, frameCount, particleCount⟩, rest, rfl⟩

end SegmentHeader

namespace Segment

/-! ### Frames -/

@[simp] theorem length_readFrame (particles : Nat) (bytes : Bytes) :
    (readFrame particles bytes).length = particles := by
  induction particles generalizing bytes with
  | zero => rfl
  | succ particles ih => simp [readFrame, ih]

@[simp] theorem length_readFrames (particles count : Nat) (bytes : Bytes) :
    (readFrames particles count bytes).length = count := by
  induction count generalizing bytes with
  | zero => rfl
  | succ count ih => simp [readFrames, ih]

/-- Every frame that is read has a position for each particle. -/
theorem length_of_mem_readFrames {particles count : Nat} {bytes : Bytes} {frame : Frame}
    (h : frame ∈ readFrames particles count bytes) : frame.length = particles := by
  induction count generalizing bytes with
  | zero => simp [readFrames] at h
  | succ count ih =>
    rcases List.mem_cons.mp h with rfl | h
    · exact length_readFrame _ _
    · exact ih h

/-- The bytes of a frame. -/
def frameBytes (frame : Frame) : Bytes := frame.flatMap Position.toBytes

@[simp] theorem length_frameBytes (frame : Frame) :
    (frameBytes frame).length = frame.length * SegmentHeader.stride := by
  induction frame with
  | nil => simp [frameBytes]
  | cons p frame ih =>
    simp only [frameBytes, List.flatMap_cons, List.length_append, Position.length_toBytes] at ih ⊢
    rw [ih, List.length_cons, Nat.succ_mul, Nat.add_comm]

/-- **A frame reads back.** -/
theorem readFrame_frameBytes (frame : Frame) (rest : Bytes) :
    readFrame frame.length (frameBytes frame ++ rest) = frame := by
  induction frame with
  | nil => rfl
  | cons p frame ih =>
    have hcons : frameBytes (p :: frame) ++ rest = p.toBytes ++ (frameBytes frame ++ rest) := by
      simp [frameBytes]
    rw [hcons, List.length_cons, readFrame, Position.ofBytes_toBytes_append,
      List.drop_left' (Position.length_toBytes p), ih]

/-- **Frames of one length read back.** -/
theorem readFrames_flatMap {particles : Nat} {frames : List Frame}
    (h : ∀ frame ∈ frames, frame.length = particles) (rest : Bytes) :
    readFrames particles frames.length (frames.flatMap frameBytes ++ rest) = frames := by
  induction frames with
  | nil => rfl
  | cons frame frames ih =>
    obtain ⟨rfl, hframes⟩ := List.forall_mem_cons.mp h
    rw [List.flatMap_cons, List.append_assoc, List.length_cons, readFrames, readFrame_frameBytes,
      List.drop_left' (length_frameBytes frame), ih hframes]

theorem length_flatMap_frameBytes {particles : Nat} {frames : List Frame}
    (h : ∀ frame ∈ frames, frame.length = particles) :
    (frames.flatMap frameBytes).length = SegmentHeader.stride * frames.length * particles := by
  induction frames with
  | nil => simp
  | cons frame frames ih =>
    obtain ⟨rfl, hframes⟩ := List.forall_mem_cons.mp h
    rw [List.flatMap_cons, List.length_append, length_frameBytes, ih hframes, List.length_cons,
      Nat.mul_succ, Nat.add_mul, Nat.add_comm, Nat.mul_comm frame.length]

/-- A frame that fits the species list is written as it is. -/
theorem fitFrame_eq_self {particles : Nat} {frame : Frame} (h : frame.length = particles) :
    fitFrame particles frame = frame := by
  simp [fitFrame, ← h]

/-! ### Segments -/

/-- **The segments that have a buffer.** -/
structure WellFormed (s : Segment) : Prop where
  /-- Each frame has a position for each particle. -/
  length_eq : ∀ frame ∈ s.frames, frame.length = s.species.length
  /-- Without particles there are no frames. -/
  frames_eq_nil : s.species = [] → s.frames = []
  /-- The number of frames is a word. -/
  frameCount_lt : s.frames.length < UInt32.size
  /-- The number of particles is a word. -/
  particleCount_lt : s.species.length < UInt32.size
  /-- The length of the buffer is addressed with 64 bits. -/
  byteCount_lt : SegmentHeader.size + s.species.length +
    SegmentHeader.stride * s.frames.length * s.species.length < addressLimit

/-- Without frames it is enough that the particles can be counted. -/
theorem wellFormed_of_frames_eq_nil {s : Segment} (hframes : s.frames = [])
    (hspecies : s.species.length < UInt32.size) : s.WellFormed where
  length_eq := by simp [hframes]
  frames_eq_nil _ := hframes
  frameCount_lt := by simp [hframes]
  particleCount_lt := hspecies
  byteCount_lt := by
    have hsize : SegmentHeader.size + UInt32.size < addressLimit := by decide
    rw [hframes, List.length_nil, Nat.mul_zero, Nat.zero_mul]
    omega

/-- The header of a segment. -/
def header (s : Segment) : SegmentHeader :=
  ⟨s.id, UInt32.ofNat s.frames.length, UInt32.ofNat s.species.length⟩

/-- The header of a segment whose counts are words says how long its buffer is. -/
theorem byteCount_header {s : Segment} (hframes : s.frames.length < UInt32.size)
    (hspecies : s.species.length < UInt32.size) :
    s.header.byteCount = SegmentHeader.size + s.species.length +
      SegmentHeader.stride * s.frames.length * s.species.length := by
  rw [SegmentHeader.byteCount, header, UInt32.toNat_ofNat_of_lt' hframes,
    UInt32.toNat_ofNat_of_lt' hspecies]

/-- The parts of a buffer, if nothing has to be fitted. -/
theorem encode_eq {s : Segment} (h : ∀ frame ∈ s.frames, frame.length = s.species.length) :
    encode s.id s.species s.frames =
      s.header.toBytes ++ (s.species ++ s.frames.flatMap frameBytes) := by
  have hbody : (s.frames.flatMap fun frame => (fitFrame s.species.length frame).flatMap
      Position.toBytes) = s.frames.flatMap frameBytes := by
    refine List.flatMap_congr fun frame hframe => ?_
    rw [fitFrame_eq_self (h frame hframe), frameBytes]
  rw [encode, hbody, List.append_assoc]
  rfl

theorem length_encode {s : Segment} (h : ∀ frame ∈ s.frames, frame.length = s.species.length) :
    (encode s.id s.species s.frames).length = SegmentHeader.size + s.species.length +
      SegmentHeader.stride * s.frames.length * s.species.length := by
  rw [encode_eq h, List.length_append, SegmentHeader.length_toBytes, List.length_append,
    length_flatMap_frameBytes h, Nat.add_assoc]

/-- **What is written reads back**, whatever follows it. -/
theorem decode_encode_append {s : Segment} (h : s.WellFormed) (rest : Bytes) :
    decode (encode s.id s.species s.frames ++ rest) = .ok s := by
  have hframeCount : (UInt32.ofNat s.frames.length).toNat = s.frames.length :=
    UInt32.toNat_ofNat_of_lt' h.frameCount_lt
  have hparticleCount : (UInt32.ofNat s.species.length).toNat = s.species.length :=
    UInt32.toNat_ofNat_of_lt' h.particleCount_lt
  have hcount := byteCount_header h.frameCount_lt h.particleCount_lt
  -- the three checks of the reader, in its order
  have hempty : ¬ (s.header.particleCount = 0 ∧ 0 < s.header.frameCount) := by
    rintro ⟨hzero, hpos⟩
    have hnil : s.species = [] := by
      rw [← List.length_eq_zero_iff, ← hparticleCount]
      exact congrArg UInt32.toNat hzero
    rw [UInt32.lt_iff_toNat_lt, header, hframeCount, h.frames_eq_nil hnil] at hpos
    exact Nat.lt_irrefl 0 hpos
  have hexpected : s.header.encodedLength? = some s.header.byteCount := by
    rw [SegmentHeader.encodedLength?_eq, addressed?, if_pos (hcount ▸ h.byteCount_lt)]
  have hlt : ¬ (encode s.id s.species s.frames ++ rest).length < s.header.byteCount := by
    rw [List.length_append, length_encode h.length_eq, hcount]
    omega
  have htake : SegmentHeader.take? (encode s.id s.species s.frames ++ rest) =
      some (s.header, s.species ++ (s.frames.flatMap frameBytes ++ rest)) := by
    rw [encode_eq h.length_eq, List.append_assoc, SegmentHeader.take?_toBytes_append,
      List.append_assoc]
  rw [decode, htake]
  dsimp only
  rw [if_neg hempty, hexpected]
  dsimp only
  rw [if_neg hlt]
  simp only [header, hframeCount, hparticleCount, List.take_left, List.drop_left,
    readFrames_flatMap h.length_eq]

/-- **What is written reads back.** -/
theorem decode_encode {s : Segment} (h : s.WellFormed) :
    decode (encode s.id s.species s.frames) = .ok s := by
  simpa using decode_encode_append h []

end Segment

end Deposition
