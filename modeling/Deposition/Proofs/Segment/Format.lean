import Deposition.Proofs.Segment.RoundTrip

/-!
# Which buffers are segments

A buffer is a segment buffer if it passes four tests: there is a header; frames are not announced
without particles; the length that the header implies is addressed with 64 bits; and the buffer is
that long. `Deposition.Segment.Carries` is the conjunction of the four and
`Deposition.Segment.Fault` says which of them is the first to fail, neither of them in terms of
reading. The two exclude each other and leave nothing out, and reading follows them exactly
(`Deposition.Segment.decode_exact`): what carries a segment is read, and what has a fault is refused
for that fault.

**The buffer is its own account of the segment.** A buffer that carries a segment starts with the
bytes that the segment is written as (`Deposition.Segment.Carries.exists_eq_encode_append`), and
what follows them is not looked at. From this come both that the coordinates are the words found in
the buffer, so that none of them is ever made up, and that bytes behind the segment make no
difference.
-/

namespace Deposition

namespace SegmentHeader

/-- Where in a buffer the position of a particle in a frame starts. -/
def offset (h : SegmentHeader) (frame particle : Nat) : Nat :=
  size + h.particleCount.toNat + stride * (frame * h.particleCount.toNat + particle)

end SegmentHeader

namespace Segment

/-! ### Carrying a segment, and the faults -/

/-- **A buffer that carries a segment** with this header. -/
structure Carries (h : SegmentHeader) (buffer : Bytes) : Prop where
  /-- The buffer starts with the header. -/
  starts : h.toBytes <+: buffer
  /-- Frames have particles. -/
  frameCount_eq_zero : h.particleCount = 0 → h.frameCount = 0
  /-- The length of the segment is addressed with 64 bits. -/
  byteCount_lt : h.byteCount < addressLimit
  /-- The buffer is as long as that. -/
  byteCount_le : h.byteCount ≤ buffer.length

/-- **The first fault of a buffer**: every test before the one that fails is passed. -/
inductive Fault (buffer : Bytes) : SegmentError → Prop
  /-- The buffer is too short for a header. -/
  | truncatedHeader (hlength : buffer.length < SegmentHeader.size) :
      Fault buffer (.truncatedHeader buffer.length)
  /-- There are frames of no particles. -/
  | emptyFrames {h : SegmentHeader} (starts : h.toBytes <+: buffer)
      (hparticles : h.particleCount = 0) (hframes : h.frameCount ≠ 0) :
      Fault buffer (.emptyFrames h.id h.frameCount)
  /-- The length cannot be addressed. -/
  | overflow {h : SegmentHeader} (starts : h.toBytes <+: buffer)
      (hframes : h.particleCount = 0 → h.frameCount = 0) (hlimit : addressLimit ≤ h.byteCount) :
      Fault buffer (.overflow h.id)
  /-- The buffer is too short for what the header announces. -/
  | truncatedPayload {h : SegmentHeader} (starts : h.toBytes <+: buffer)
      (hframes : h.particleCount = 0 → h.frameCount = 0) (hlimit : h.byteCount < addressLimit)
      (hlength : buffer.length < h.byteCount) :
      Fault buffer (.truncatedPayload h.id h.byteCount buffer.length)

/-- **A buffer carries a segment or has a fault.** -/
theorem carries_or_fault (buffer : Bytes) :
    (∃ h, Carries h buffer) ∨ ∃ error, Fault buffer error := by
  -- the tests are made here in the order in which reading makes them
  by_cases hheader : buffer.length < SegmentHeader.size
  · exact .inr ⟨_, .truncatedHeader hheader⟩
  obtain ⟨h, rest, rfl⟩ :=
    SegmentHeader.exists_eq_toBytes_append (Nat.le_of_not_lt hheader)
  have starts : h.toBytes <+: h.toBytes ++ rest := List.prefix_append _ _
  by_cases hempty : h.particleCount = 0 ∧ h.frameCount ≠ 0
  · exact .inr ⟨_, .emptyFrames starts hempty.1 hempty.2⟩
  have hframes : h.particleCount = 0 → h.frameCount = 0 := by simpa using hempty
  by_cases hlimit : h.byteCount < addressLimit
  · by_cases hlength : (h.toBytes ++ rest).length < h.byteCount
    · exact .inr ⟨_, .truncatedPayload starts hframes hlimit hlength⟩
    · exact .inl ⟨h, starts, hframes, hlimit, Nat.le_of_not_lt hlength⟩
  · exact .inr ⟨_, .overflow starts hframes (Nat.le_of_not_lt hlimit)⟩

/-- **A fault is found**, and it is the first one. -/
theorem Fault.decode_eq {buffer : Bytes} {error : SegmentError} (fault : Fault buffer error) :
    decode buffer = .error error := by
  cases fault with
  | truncatedHeader hlength =>
    have htake : SegmentHeader.take? buffer = none := by
      cases htake : SegmentHeader.take? buffer with
      | none => rfl
      | some found =>
        have hbuffer := congrArg List.length (SegmentHeader.eq_of_take?_eq_some htake)
        rw [List.length_append, SegmentHeader.length_toBytes] at hbuffer
        omega
    rw [decode, htake]
  | @emptyFrames h starts hparticles hframes =>
    obtain ⟨rest, rfl⟩ := starts
    have hpos : 0 < h.frameCount := UInt32.pos_iff_ne_zero.mpr hframes
    rw [decode, SegmentHeader.take?_toBytes_append]
    dsimp only
    rw [if_pos ⟨hparticles, hpos⟩]
  | @overflow h starts hframes hlimit =>
    obtain ⟨rest, rfl⟩ := starts
    rw [decode, SegmentHeader.take?_toBytes_append]
    dsimp only
    rw [if_neg (fun hempty => absurd (hframes hempty.1) (UInt32.pos_iff_ne_zero.mp hempty.2)),
      SegmentHeader.encodedLength?_eq, addressed?, if_neg (Nat.not_lt.mpr hlimit)]
  | @truncatedPayload h starts hframes hlimit hlength =>
    obtain ⟨rest, rfl⟩ := starts
    rw [decode, SegmentHeader.take?_toBytes_append]
    dsimp only
    rw [if_neg (fun hempty => absurd (hframes hempty.1) (UInt32.pos_iff_ne_zero.mp hempty.2)),
      SegmentHeader.encodedLength?_eq, addressed?, if_pos hlimit]
    dsimp only
    rw [if_pos hlength]

/-! ### What a buffer carries -/

/-- The bytes of a frame that is read are the bytes that it is read from. -/
theorem frameBytes_readFrame {particles : Nat} {bytes : Bytes}
    (h : particles * SegmentHeader.stride ≤ bytes.length) :
    frameBytes (readFrame particles bytes) = bytes.take (particles * SegmentHeader.stride) := by
  induction particles generalizing bytes with
  | zero => simp [readFrame, frameBytes]
  | succ particles ih =>
    rw [Nat.succ_mul] at h
    obtain ⟨p, rest, rfl⟩ := Position.exists_eq_toBytes_append bytes (by omega)
    rw [List.length_append, Position.length_toBytes] at h
    have hrest : frameBytes (readFrame particles rest) =
        rest.take (particles * SegmentHeader.stride) := ih (by omega)
    have htake : (p.toBytes ++ rest).take
        (SegmentHeader.stride + particles * SegmentHeader.stride) =
          p.toBytes ++ rest.take (particles * SegmentHeader.stride) := by
      rw [List.take_append, List.take_of_length_le (by simp), Position.length_toBytes,
        Nat.add_sub_cancel_left]
    rw [readFrame, Position.ofBytes_toBytes_append, List.drop_left' (Position.length_toBytes p),
      frameBytes, List.flatMap_cons, ← frameBytes, hrest, Nat.succ_mul, Nat.add_comm, htake]

/-- So are those of several frames. -/
theorem flatMap_frameBytes_readFrames {particles count : Nat} {bytes : Bytes}
    (h : count * (particles * SegmentHeader.stride) ≤ bytes.length) :
    (readFrames particles count bytes).flatMap frameBytes =
      bytes.take (count * (particles * SegmentHeader.stride)) := by
  induction count generalizing bytes with
  | zero => simp [readFrames]
  | succ count ih =>
    rw [Nat.succ_mul] at h
    rw [readFrames, List.flatMap_cons, frameBytes_readFrame (by omega),
      ih (by rw [List.length_drop]; omega), Nat.succ_mul, Nat.add_comm, List.take_add]

namespace Carries

variable {h : SegmentHeader} {buffer : Bytes}

/-- **A buffer starts with the segment that it carries**, written out. -/
theorem exists_eq_encode_append (carries : Carries h buffer) :
    ∃ (s : Segment) (rest : Bytes), s.WellFormed ∧ s.header = h ∧
      buffer = encode s.id s.species s.frames ++ rest := by
  obtain ⟨body, rfl⟩ := carries.starts
  obtain ⟨id, frameCount, particleCount⟩ := h
  have hframeCount : UInt32.ofNat frameCount.toNat = frameCount := UInt32.ofNat_toNat
  have hparticleCount : UInt32.ofNat particleCount.toNat = particleCount := UInt32.ofNat_toNat
  have hlimit := carries.byteCount_lt
  have hbody := carries.byteCount_le
  rw [List.length_append, SegmentHeader.length_toBytes] at hbody
  -- the announced length, with its product as the frames are read: frame by frame
  have hproduct : SegmentHeader.stride * frameCount.toNat * particleCount.toNat =
      frameCount.toNat * (particleCount.toNat * SegmentHeader.stride) := by
    rw [Nat.mul_assoc, Nat.mul_comm, Nat.mul_assoc]
  simp only [SegmentHeader.byteCount, hproduct] at hlimit hbody
  have hspecies : (body.take particleCount.toNat).length = particleCount.toNat := by
    rw [List.length_take]
    omega
  let s : Segment := {
    id
    species := body.take particleCount.toNat
    frames := readFrames particleCount.toNat frameCount.toNat (body.drop particleCount.toNat) }
  have hframes : s.frames.length = frameCount.toNat := length_readFrames _ _ _
  have hlength : ∀ frame ∈ s.frames, frame.length = s.species.length := fun frame hframe =>
    (length_of_mem_readFrames hframe).trans hspecies.symm
  have hheader : s.header = ⟨id, frameCount, particleCount⟩ := by
    rw [header, hframes, hspecies, hframeCount, hparticleCount]
  refine ⟨s, body.drop (particleCount.toNat +
    frameCount.toNat * (particleCount.toNat * SegmentHeader.stride)), ?_, hheader, ?_⟩
  · refine ⟨hlength, fun hnil => ?_, ?_, ?_, ?_⟩
    · have hzero : particleCount.toNat = 0 := hspecies.symm.trans (congrArg List.length hnil)
      have hnone := carries.frameCount_eq_zero (UInt32.toNat_inj.mp hzero)
      exact List.eq_nil_of_length_eq_zero (hframes.trans (congrArg UInt32.toNat hnone))
    · exact hframes ▸ frameCount.toNat_lt
    · exact hspecies ▸ particleCount.toNat_lt
    · rw [hspecies, hframes, hproduct]
      exact hlimit
  · -- the species and the frames are the front of what follows the header
    have hbytes : s.frames.flatMap frameBytes = (body.drop particleCount.toNat).take
        (frameCount.toNat * (particleCount.toNat * SegmentHeader.stride)) :=
      flatMap_frameBytes_readFrames (by rw [List.length_drop]; omega)
    rw [encode_eq hlength, hheader, hbytes, ← List.take_add, List.append_assoc,
      List.take_append_drop]

/-- **A buffer that carries a segment is read.** -/
theorem exists_decode_eq (carries : Carries h buffer) : ∃ s, decode buffer = .ok s := by
  obtain ⟨s, rest, hs, -, rfl⟩ := carries.exists_eq_encode_append
  exact ⟨s, decode_encode_append hs rest⟩

end Carries

/-- **What is read starts the buffer**, written out. -/
theorem exists_of_decode {buffer : Bytes} {s : Segment} (hd : decode buffer = .ok s) :
    Carries s.header buffer ∧ s.WellFormed ∧
      ∃ rest, buffer = encode s.id s.species s.frames ++ rest := by
  rcases carries_or_fault buffer with ⟨h, carries⟩ | ⟨error, fault⟩
  · obtain ⟨r, rest, hr, hheader, hbuffer⟩ := carries.exists_eq_encode_append
    obtain rfl : s = r := by
      rw [hbuffer, decode_encode_append hr] at hd
      exact (Except.ok.inj hd).symm
    exact ⟨hheader ▸ carries, hr, rest, hbuffer⟩
  · rw [fault.decode_eq] at hd
    cases hd

/-- **What is read is well-formed.** -/
theorem wellFormed_of_decode {buffer : Bytes} {s : Segment} (h : decode buffer = .ok s) :
    s.WellFormed := (exists_of_decode h).2.1

/-! ### Coordinates -/

/-- The bytes of a frame, cut at one of its positions. -/
theorem frameBytes_eq_append {frame : Frame} {i : Nat} {p : Position} (h : frame[i]? = some p) :
    ∃ front rest, frameBytes frame = front ++ (p.toBytes ++ rest) ∧
      front.length = i * SegmentHeader.stride := by
  obtain ⟨hi, rfl⟩ := List.getElem?_eq_some_iff.mp h
  refine ⟨frameBytes (frame.take i), frameBytes (frame.drop (i + 1)), ?_, ?_⟩
  · -- only the frame whose bytes are taken is to be split, not the one that `i` points into
    have hsplit : frame = frame.take i ++ frame[i] :: frame.drop (i + 1) := by simp
    conv_lhs => rw [hsplit]
    rw [frameBytes, List.flatMap_append, List.flatMap_cons]
    rfl
  · rw [length_frameBytes, List.length_take_of_le (Nat.le_of_lt hi)]

/-- The bytes of frames of one length, cut at one of the frames. -/
theorem flatMap_frameBytes_eq_append {particles : Nat} {frames : List Frame}
    (hlength : ∀ frame ∈ frames, frame.length = particles) {i : Nat} {frame : Frame}
    (h : frames[i]? = some frame) :
    ∃ front rest, frames.flatMap frameBytes = front ++ (frameBytes frame ++ rest) ∧
      front.length = SegmentHeader.stride * (i * particles) := by
  obtain ⟨hi, rfl⟩ := List.getElem?_eq_some_iff.mp h
  refine ⟨(frames.take i).flatMap frameBytes, (frames.drop (i + 1)).flatMap frameBytes, ?_, ?_⟩
  · have hsplit : frames = frames.take i ++ frames[i] :: frames.drop (i + 1) := by simp
    conv_lhs => rw [hsplit]
    rw [List.flatMap_append, List.flatMap_cons]
  · rw [length_flatMap_frameBytes fun frame hframe => hlength frame (List.mem_of_mem_take hframe),
      List.length_take_of_le (Nat.le_of_lt hi), Nat.mul_assoc]

/-- **The buffer of a segment, cut at one of its positions.** -/
theorem encode_eq_append {s : Segment} (hs : s.WellFormed) {f i : Nat} {frame : Frame}
    {p : Position} (hf : s.frames[f]? = some frame) (hp : frame[i]? = some p) :
    ∃ front rest, encode s.id s.species s.frames = front ++ (p.toBytes ++ rest) ∧
      front.length = s.header.offset f i := by
  obtain ⟨before, after, hframes, hbefore⟩ := flatMap_frameBytes_eq_append hs.length_eq hf
  obtain ⟨front, rest, hframe, hfront⟩ := frameBytes_eq_append hp
  refine ⟨s.header.toBytes ++ (s.species ++ (before ++ front)), rest ++ after, ?_, ?_⟩
  · rw [encode_eq hs.length_eq, hframes, hframe]
    simp
  · have hparticles : s.header.particleCount.toNat = s.species.length :=
      UInt32.toNat_ofNat_of_lt' hs.particleCount_lt
    simp only [List.length_append, SegmentHeader.length_toBytes, hbefore, hfront,
      SegmentHeader.offset, hparticles, Nat.mul_add, Nat.mul_comm i]
    omega

/-- The three words of a position, wherever it is. -/
theorem at?_append_toBytes (front : Bytes) (p : Position) (rest : Bytes) :
    let bytes := front ++ (p.toBytes ++ rest)
    Word.at? bytes front.length = some p.z.bits ∧
      Word.at? bytes (front.length + 4) = some p.x.bits ∧
      Word.at? bytes (front.length + 8) = some p.y.bits := by
  have hx := Word.at?_append (front ++ Word.toBytes p.z.bits) p.x.bits
    (Word.toBytes p.y.bits ++ rest)
  have hy := Word.at?_append (front ++ Word.toBytes p.z.bits ++ Word.toBytes p.x.bits) p.y.bits rest
  have hz := Word.at?_append front p.z.bits
    (Word.toBytes p.x.bits ++ (Word.toBytes p.y.bits ++ rest))
  simp only [List.length_append, Word.length_toBytes, List.append_assoc] at hx hy hz
  simp only [Position.toBytes, List.append_assoc]
  exact ⟨hz, hx, hy⟩

/-! ### Reading exactly -/

/-- **The segment that a buffer holds** behind this header. -/
structure Holds (h : SegmentHeader) (buffer : Bytes) (s : Segment) : Prop where
  /-- The id is that of the header. -/
  id_eq : s.id = h.id
  /-- The species are the bytes behind the header. -/
  species_eq : s.species = (buffer.drop SegmentHeader.size).take h.particleCount.toNat
  /-- There are as many frames as announced. -/
  length_frames_eq : s.frames.length = h.frameCount.toNat
  /-- Each of them has a position for each particle. -/
  length_eq : ∀ frame ∈ s.frames, frame.length = h.particleCount.toNat
  /-- Every coordinate is a word of the buffer; the axes are those of the simulation. -/
  at?_eq : ∀ (f i : Nat) (frame : Frame) (p : Position), s.frames[f]? = some frame →
    frame[i]? = some p →
      Word.at? buffer (h.offset f i) = some p.z.bits ∧
      Word.at? buffer (h.offset f i + 4) = some p.x.bits ∧
      Word.at? buffer (h.offset f i + 8) = some p.y.bits

theorem exists_holds {buffer : Bytes} {s : Segment} (hd : decode buffer = .ok s) :
    Holds s.header buffer s := by
  obtain ⟨-, hs, rest, rfl⟩ := exists_of_decode hd
  have hframes : s.header.frameCount.toNat = s.frames.length :=
    UInt32.toNat_ofNat_of_lt' hs.frameCount_lt
  have hparticles : s.header.particleCount.toNat = s.species.length :=
    UInt32.toNat_ofNat_of_lt' hs.particleCount_lt
  refine ⟨rfl, ?_, hframes.symm, fun frame hframe => ?_, fun f i frame p hf hp => ?_⟩
  · rw [encode_eq hs.length_eq, List.append_assoc,
      List.drop_left' (SegmentHeader.length_toBytes _), hparticles, List.append_assoc,
      List.take_left]
  · rw [hparticles, hs.length_eq frame hframe]
  · obtain ⟨front, behind, hbytes, hfront⟩ := encode_eq_append hs hf hp
    rw [hbytes, List.append_assoc, List.append_assoc, ← hfront]
    exact at?_append_toBytes front p (behind ++ rest)

/-- **The bytes of a segment are the front of its buffer**, and no others are looked at. -/
theorem encode_eq_take {buffer : Bytes} {s : Segment} (hd : decode buffer = .ok s) :
    encode s.id s.species s.frames = buffer.take s.header.byteCount ∧
      ∀ other, other.take s.header.byteCount = buffer.take s.header.byteCount →
        decode other = .ok s := by
  obtain ⟨-, hs, rest, rfl⟩ := exists_of_decode hd
  have hlength : (encode s.id s.species s.frames).length = s.header.byteCount := by
    rw [length_encode hs.length_eq, byteCount_header hs.frameCount_lt hs.particleCount_lt]
  rw [List.take_left' hlength]
  refine ⟨rfl, fun other hother => ?_⟩
  rw [← List.take_append_drop s.header.byteCount other, hother]
  exact decode_encode_append hs _

/-- **Reading is exact.** A buffer is read if and only if it carries a segment; otherwise the error
is its first fault. What is read is what the buffer holds: it has the frames and positions that the
header announces, every coordinate is a word of the buffer, the bytes behind the announced length
are not looked at, and writing gives back the bytes before them. The length that a header announces
is computed exactly, and there is none exactly when it needs more than 64 bits. -/
theorem decode_exact (buffer : Bytes) :
    ((∃ s, decode buffer = .ok s) ↔ ∃ h, Carries h buffer) ∧
    (∀ error, decode buffer = .error error ↔ Fault buffer error) ∧
    (∀ s, decode buffer = .ok s → ∃ h, Carries h buffer ∧ Holds h buffer s ∧
      (∀ other, other.take h.byteCount = buffer.take h.byteCount → decode other = .ok s) ∧
      encode s.id s.species s.frames = buffer.take h.byteCount) ∧
    ∀ h : SegmentHeader,
      (∀ n, h.encodedLength? = some n ↔ n = h.byteCount ∧ h.byteCount < addressLimit) ∧
      (h.encodedLength? = none ↔ addressLimit ≤ h.byteCount) := by
  refine ⟨⟨?_, ?_⟩, fun error => ⟨fun hd => ?_, Fault.decode_eq⟩, fun s hd => ?_, fun h => ?_⟩
  · rintro ⟨s, hd⟩
    exact ⟨_, (exists_of_decode hd).1⟩
  · rintro ⟨h, carries⟩
    exact carries.exists_decode_eq
  · rcases carries_or_fault buffer with ⟨h, carries⟩ | ⟨found, fault⟩
    · obtain ⟨s, hs⟩ := carries.exists_decode_eq
      rw [hs] at hd
      cases hd
    · obtain rfl : error = found := by
        rw [fault.decode_eq] at hd
        exact (Except.error.inj hd).symm
      exact fault
  · obtain ⟨hbytes, hothers⟩ := encode_eq_take hd
    exact ⟨s.header, (exists_of_decode hd).1, exists_holds hd, hothers, hbytes⟩
  · rw [SegmentHeader.encodedLength?_eq, addressed?]
    by_cases hlimit : h.byteCount < addressLimit
    · simp [hlimit, eq_comm]
    · simp [hlimit, Nat.le_of_not_lt hlimit]

/-- A buffer of one frame of one particle, with a byte behind it. Two of the coordinates are no
numbers and one is the negative zero; none of them changes on the way. -/
theorem decode_exact_of_unusual :
    ∃ (buffer : Bytes) (s : Segment), buffer.length = 26 ∧ decode buffer = .ok s ∧
      s.frames = [[⟨⟨0x80000000⟩, ⟨0x7f800001⟩, ⟨0xffc00123⟩⟩]] ∧
      Word.at? buffer 13 = some 0xffc00123 ∧
      encode s.id s.species s.frames = buffer.take 25 ∧ decode (buffer.take 25) = .ok s := by
  let buffer : Bytes := (SegmentHeader.mk 7 1 1).toBytes ++ [5] ++
    [0x23, 0x01, 0xc0, 0xff, 0, 0, 0, 0x80, 0x01, 0, 0x80, 0x7f] ++ [0xee]
  let s : Segment := ⟨7, [5], [[⟨⟨0x80000000⟩, ⟨0x7f800001⟩, ⟨0xffc00123⟩⟩]]⟩
  have hd : decode buffer = .ok s := rfl
  obtain ⟨h, -, holds, hothers, hbytes⟩ := (decode_exact buffer).2.2.1 s hd
  have hframes : h.frameCount.toNat = 1 := holds.length_frames_eq.symm
  have hparticles : h.particleCount.toNat = 1 := (holds.length_eq _ List.mem_cons_self).symm
  have hcount : h.byteCount = 25 := by
    rw [SegmentHeader.byteCount, hframes, hparticles]
    rfl
  have hoffset : h.offset 0 0 = 13 := by
    rw [SegmentHeader.offset, hparticles]
    rfl
  rw [hcount] at hothers hbytes
  have hz := (holds.at?_eq 0 0 _ _ rfl rfl).1
  rw [hoffset] at hz
  exact ⟨buffer, s, rfl, hd, rfl, hz, hbytes, hothers _ (by rw [List.take_take, Nat.min_self])⟩

end Segment

end Deposition
