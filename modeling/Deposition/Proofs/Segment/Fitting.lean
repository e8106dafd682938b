import Deposition.Proofs.Segment.Format

/-!
# Segments of ill-fitting frames

`Deposition.Proofs.Segment.RoundTrip` writes segments whose frames fit their species list. Writing
takes any frames, though: a frame that is too long is cut, and one that is too short is filled up
with particles at the origin. Nothing else is lost on the way, which is
`Deposition.Segment.decode_encode_padded`, and a buffer that is cut short at whatever place is
recognised as such: an encoding is the beginning of longer buffers and never the beginning of
another encoding.

The argument is one observation. Frames that do not fit are written as the frames that they are
fitted to (`Deposition.Segment.encode_fitted`), and those have a header that says how long their
buffer is; so a buffer that is shorter has a fault, and one that is as long carries the segment.
-/

namespace Deposition

namespace Segment

/-- The frame with a position for each of so many particles: the one it has, or else the origin. -/
def padded (particles : Nat) (frame : Frame) : Frame :=
  (List.range particles).map fun i => frame[i]?.getD .origin

@[simp] theorem length_padded (particles : Nat) (frame : Frame) :
    (padded particles frame).length = particles := by
  simp [padded]

theorem fitFrame_eq_padded (particles : Nat) (frame : Frame) :
    fitFrame particles frame = padded particles frame := by
  refine List.ext_getElem? fun i => ?_
  rw [fitFrame, padded, List.getElem?_append, List.getElem?_map, List.length_take]
  by_cases hi : i < particles
  · rw [List.getElem?_range hi, Option.map_some]
    by_cases hframe : i < frame.length
    · rw [if_pos (by omega), List.getElem?_take_of_lt hi, List.getElem?_eq_getElem hframe]
      rfl
    · rw [if_neg (by omega), List.getElem?_replicate_of_lt (by omega),
        List.getElem?_eq_none (Nat.le_of_not_lt hframe)]
      rfl
  · rw [if_neg (by omega), List.getElem?_eq_none (by simp; omega),
      List.getElem?_eq_none (by simp; omega)]
    rfl

/-- The segment whose frames are these, fitted to the species. -/
def fitted (id : UInt32) (species : Bytes) (frames : List Frame) : Segment :=
  ⟨id, species, frames.map (padded species.length)⟩

section Fitted

variable (id : UInt32) (species : Bytes) (frames : List Frame)

theorem length_of_mem_fitted :
    ∀ frame ∈ (fitted id species frames).frames, frame.length = species.length := by
  simp [fitted]

/-- **Frames are written as the frames that they are fitted to.** -/
theorem encode_fitted : encode (fitted id species frames).id (fitted id species frames).species
    (fitted id species frames).frames = encode id species frames := by
  have hbody (frame : Frame) : fitFrame species.length (padded species.length frame) =
      fitFrame species.length frame := by
    rw [fitFrame_eq_self (length_padded _ _), fitFrame_eq_padded]
  simp only [fitted, encode, List.flatMap_map, hbody, List.length_map]

theorem length_encode_fitted : (encode id species frames).length = SegmentHeader.size +
    species.length + SegmentHeader.stride * frames.length * species.length := by
  have hcount : (fitted id species frames).frames.length = frames.length := List.length_map _
  rw [← encode_fitted, length_encode (length_of_mem_fitted id species frames), hcount]
  rfl

theorem starts_encode : (fitted id species frames).header.toBytes <+: encode id species frames := by
  rw [← encode_fitted, encode_eq (length_of_mem_fitted id species frames)]
  exact List.prefix_append _ _

variable {species frames} (hspecies : species.length < UInt32.size)
  (hframes : frames.length < UInt32.size) (hparticles : species ≠ [] ∨ frames = [])

include hspecies hframes in
/-- The header says how long the buffer is. -/
theorem byteCount_fitted :
    (fitted id species frames).header.byteCount = (encode id species frames).length := by
  rw [byteCount_header (by simpa [fitted]) hspecies, length_encode_fitted]
  simp [fitted]

include hspecies hparticles in
theorem frameCount_fitted_eq_zero (hzero : (fitted id species frames).header.particleCount = 0) :
    (fitted id species frames).header.frameCount = 0 := by
  rcases hparticles with hne | rfl
  · have hnil : species.length = 0 := by
      rw [← UInt32.toNat_ofNat_of_lt' hspecies]
      exact congrArg UInt32.toNat hzero
    exact absurd (List.eq_nil_of_length_eq_zero hnil) hne
  · rfl

include hspecies hframes hparticles in
theorem wellFormed_fitted (hlimit : (encode id species frames).length < addressLimit) :
    (fitted id species frames).WellFormed := by
  have hcount : (fitted id species frames).frames.length < UInt32.size := by simpa [fitted]
  refine ⟨length_of_mem_fitted id species frames, fun hnil => ?_, hcount, hspecies, ?_⟩
  · rcases hparticles with hne | rfl
    · exact absurd hnil hne
    · rfl
  · rw [← byteCount_header hcount hspecies, byteCount_fitted id hspecies hframes]
    exact hlimit

include hspecies hframes hparticles in
/-- **A buffer that is cut short has a fault**: it lacks its header or is shorter than it should. -/
theorem fault_take (hlimit : (encode id species frames).length < addressLimit) {n : Nat}
    (hn : n < (encode id species frames).length) :
    Fault ((encode id species frames).take n)
      (if n < 12 then .truncatedHeader n
        else .truncatedPayload id (encode id species frames).length n) := by
  have hcount := byteCount_fitted id hspecies hframes
  have htake : ((encode id species frames).take n).length = n :=
    List.length_take_of_le (Nat.le_of_lt hn)
  split
  · next hheader =>
    have fault : Fault _ _ := .truncatedHeader (Nat.lt_of_le_of_lt (Nat.le_of_eq htake) hheader)
    rwa [htake] at fault
  · next hheader =>
    -- the header is still whole, and it announces the length that the buffer had
    have starts : (fitted id species frames).header.toBytes <+:
        (encode id species frames).take n :=
      List.prefix_take_iff.mpr ⟨starts_encode id species frames, Nat.le_of_not_lt hheader⟩
    have fault : Fault _ _ :=
      .truncatedPayload starts (frameCount_fitted_eq_zero id hspecies hparticles) (by omega)
        (by omega)
    rwa [htake, hcount] at fault

end Fitted

/-- **What is written reads back, fitted; and what is cut short does not.** Writing gives a buffer
of a length that can be told beforehand. If that length is addressed with 64 bits, then reading
gives the segment of the fitted frames, bit for bit, bytes behind the buffer change nothing, and
every shorter beginning of it is refused with the lengths that it has and should have. (A longer
buffer fits no memory; a reader that met one would refuse it, with no bytes missing.) -/
theorem decode_encode_padded (id : UInt32) {species : Bytes} {frames : List Frame}
    (hspecies : species.length < UInt32.size) (hframes : frames.length < UInt32.size)
    (hparticles : species ≠ [] ∨ frames = []) :
    let buffer := encode id species frames
    buffer.length = 12 + species.length + 12 * frames.length * species.length ∧
    (buffer.length < addressLimit →
      decode buffer = .ok ⟨id, species, frames.map (padded species.length)⟩ ∧
      (∀ more, decode (buffer ++ more) = decode buffer) ∧
      ∀ n < buffer.length, decode (buffer.take n) =
        .error (if n < 12 then .truncatedHeader n else .truncatedPayload id buffer.length n)) ∧
    (addressLimit ≤ buffer.length → ∀ more, decode (buffer ++ more) = .error (.overflow id)) := by
  refine ⟨length_encode_fitted id species frames, fun hlimit => ?_, fun hlimit more => ?_⟩
  · have hread (more : Bytes) : decode (encode id species frames ++ more) =
        .ok (fitted id species frames) := by
      rw [← encode_fitted]
      exact decode_encode_append (wellFormed_fitted id hspecies hframes hparticles hlimit) more
    have hself : decode (encode id species frames) = .ok (fitted id species frames) := by
      simpa using hread []
    refine ⟨hself, fun more => (hread more).trans hself.symm, fun n hn => ?_⟩
    exact (fault_take id hspecies hframes hparticles hlimit hn).decode_eq
  · have hcount := byteCount_fitted id hspecies hframes
    have fault : Fault (encode id species frames ++ more) _ :=
      .overflow ((starts_encode id species frames).trans (List.prefix_append _ _))
        (frameCount_fitted_eq_zero id hspecies hparticles) (hcount ▸ hlimit)
    exact fault.decode_eq

/-- Two particles and two frames, of which one is too short and one too long; the id is the last
one, and a coordinate is no number. -/
theorem decode_encode_padded_of_two :
    ∃ (buffer : Bytes) (p q : Position), p.x = ⟨0x7f800001⟩ ∧
      buffer = encode 0xffffffff [5, 0] [[p], [p, q, p]] ∧ buffer.length = 62 ∧
      decode (buffer ++ [1, 2, 3]) = .ok ⟨0xffffffff, [5, 0], [[p, .origin], [p, q]]⟩ ∧
      decode (buffer.take 61) = .error (.truncatedPayload 0xffffffff 62 61) ∧
      decode (buffer.take 11) = .error (.truncatedHeader 11) := by
  let p : Position := ⟨⟨0x7f800001⟩, ⟨0x80000000⟩, ⟨0x3f800000⟩⟩
  let q : Position := ⟨⟨1⟩, ⟨2⟩, ⟨3⟩⟩
  obtain ⟨hlength, hread, -⟩ := @decode_encode_padded 0xffffffff [5, 0] [[p], [p, q, p]]
    (by decide) (by decide) (.inl (by decide))
  have hlength : (encode 0xffffffff [5, 0] [[p], [p, q, p]]).length = 62 := hlength
  rw [hlength] at hread
  obtain ⟨hself, hmore, hcut⟩ := hread (by decide)
  exact ⟨_, p, q, rfl, rfl, hlength, (hmore _).trans hself, hcut 61 (by decide),
    hcut 11 (by decide)⟩

end Segment

end Deposition
