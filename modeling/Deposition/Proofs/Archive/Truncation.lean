import Deposition.Proofs.Archive.Reading

/-!
# Archives that are cut short

A program that is stopped while it writes leaves an archive that ends anywhere. What is complete in
it is still to be had, and that something is missing is to be noticed. Whether it is noticed depends
on what the reader was doing when the bytes ran out: in a header, or in a body where a segment is
expected, it needs the bytes that are missing; in a body that it passes over it does not
(`Deposition.Archive.Piece.remnant`). What it gives before that is settled in
`Deposition.Proofs.Archive.Pieces`, whatever stands at the end of the file.

So a cut in a chunk that no segment is expected in is noticed in its header only
(`Deposition.Archive.cut_noticed_iff`); behind its header, the archive reads as if it had been
completed without the chunk. Archives that were written segment by segment, where there are no such
chunks, are in `Deposition.Proofs.Archive.Unfinished`.
-/

namespace Deposition

/-! ### Reading what is cut short -/

namespace Chunk

variable {decompress : Bytes → Nat → Option Bytes} {source : Source} {bytes : Bytes}
  {fault : Option IoError} {following : Nat}

/-- The beginning of a header is no header. -/
theorem takeHeader?_of_short (hne : bytes ≠ []) (hlt : bytes.length < headerBytes)
    (h : source.Holds bytes fault) : takeHeader? source = .error (fault.getD .unexpectedEnd) := by
  obtain ⟨first, others, rfl⟩ := List.exists_cons_of_ne_nil hne
  rw [List.length_cons, headerBytes] at hlt
  obtain ⟨source₁, hbyte, h₁⟩ := h.byte?_cons
  by_cases htag : others.length < 3
  · simp only [takeHeader?, hbyte, h₁.take_of_lt htag, bind, Except.bind]
  · rw [← List.take_append_drop 3 others] at h₁
    obtain ⟨source₂, htake, h₂⟩ := h₁.take
    rw [List.length_take_of_le (Nat.le_of_not_lt htag)] at htake
    have hword : (others.drop 3).length < 4 := by
      rw [List.length_drop]
      omega
    simp only [takeHeader?, hbyte, htake, h₂.word_of_lt hword, bind, Except.bind]

/-- The beginning of a body is no body, and it may be the length of the contents that is missing. -/
theorem takeBody_of_short (hle : lengthBytes ≤ following) (hlt : bytes.length < following)
    (h : source.Holds bytes fault) :
    takeBodyUsing decompress following source = .error (fault.getD .unexpectedEnd) := by
  by_cases hlength : bytes.length < lengthBytes
  · simp only [takeBodyUsing, if_neg (Nat.not_lt.mpr hle), bind, Except.bind, h.word_of_lt hlength]
  · obtain ⟨w, block, rfl⟩ := Word.exists_eq_toBytes_append bytes (Nat.le_of_not_lt hlength)
    have hblock : block.length < following - lengthBytes := by
      rw [List.length_append, Word.length_toBytes] at hlt
      rw [lengthBytes]
      omega
    obtain ⟨source₁, hword, h₁⟩ := h.word
    simp only [takeBodyUsing, if_neg (Nat.not_lt.mpr hle), bind, Except.bind, hword,
      h₁.take_of_lt hblock]

end Chunk

namespace Archive

/-! ### The last piece -/

section Remnant

variable {decompress : Bytes → Nat → Option Bytes} {p : Piece} {k : Nat} {body : Bytes}
  {place : Nat} {source : Source} {fault : Option IoError}

/-- **What a reader gives of a piece** of which only the first `k` bytes are there. The bytes that
are missing are noticed where they are needed. -/
def Piece.remnant (p : Piece) (k : Nat) : List (Except ArchiveError Segment) :=
  if k = 0 then []
  else if k < Chunk.headerBytes then [.error (.io .unexpectedEnd)]
  else if !p.isSegment then []
  else if p.body.length < Chunk.lengthBytes then [.error (.io .chunkTooShort)]
  else [.error (.io .unexpectedEnd)]

theorem throughError_remnant (p : Piece) (k : Nat) : throughError (p.remnant k) = p.remnant k := by
  unfold Piece.remnant
  repeat' split
  all_goals rfl

theorem length_remnant_le (p : Piece) (k : Nat) : (p.remnant k).length ≤ 1 := by
  unfold Piece.remnant
  repeat' split
  all_goals simp only [List.length_nil, List.length_singleton]; omega

/-- Behind its header, a piece that is cut is its header and the beginning of its body. -/
theorem Piece.take_bytes (hk : Chunk.headerBytes ≤ k) :
    p.bytes.take k = p.tag ++
      (Word.toBytes (UInt32.ofNat p.body.length) ++ p.body.take (k - Chunk.headerBytes)) := by
  have hheader : (p.tag ++ Word.toBytes (UInt32.ofNat p.body.length)).length =
      Chunk.headerBytes := by
    rw [List.length_append, p.length_tag, Word.length_toBytes, Chunk.headerBytes]
  obtain ⟨k, rfl⟩ := Nat.exists_eq_add_of_le hk
  rw [bytes, ← List.append_assoc, ← hheader, List.take_length_add_append, Nat.add_sub_cancel_left,
    List.append_assoc]

namespace Reader

/-- What is found in front of a header whose body is cut short. -/
theorem found_cut (hlt : body.length < p.body.length)
    (h : source.Holds (p.tag ++ (Word.toBytes (UInt32.ofNat p.body.length) ++ body)) fault) :
    found { source, chunk := place, decompress } =
      if !p.isSegment then fault.elim (.ok none) fun e => .error (.io e)
      else if p.body.length < Chunk.lengthBytes then .error (.io .chunkTooShort)
      else .error (.io (fault.getD .unexpectedEnd)) := by
  cases hp : p.isSegment with
  | false =>
    obtain ⟨behind, hbehind, hfound⟩ := found_of_header_other hp h place
    rw [hfound, hbehind.skip_of_lt hlt]
    cases fault <;> rfl
  | true =>
    obtain ⟨behind, hbehind, hfound⟩ := found_of_header_segment hp h place
    rw [hfound]
    by_cases hshort : p.body.length < Chunk.lengthBytes
    · rw [Chunk.takeBody_of_lt hshort]
      simp [hshort]
    · rw [Chunk.takeBody_of_short (Nat.le_of_not_lt hshort) hlt hbehind]
      simp [hshort]

/-- **What is found in front of a piece that is cut short**, or at which the source breaks. -/
theorem found_take (hlt : k < p.bytes.length) (h : source.Holds (p.bytes.take k) fault) :
    found { source, chunk := place, decompress } =
      if k = 0 then fault.elim (.ok none) fun e => .error (.io e)
      else if k < Chunk.headerBytes then .error (.io (fault.getD .unexpectedEnd))
      else if !p.isSegment then fault.elim (.ok none) fun e => .error (.io e)
      else if p.body.length < Chunk.lengthBytes then .error (.io .chunkTooShort)
      else .error (.io (fault.getD .unexpectedEnd)) := by
  by_cases hzero : k = 0
  · rw [if_pos hzero]
    rw [hzero, List.take_zero] at h
    exact found_nil h place
  by_cases hheader : k < Chunk.headerBytes
  · have hlength : (p.bytes.take k).length = k := List.length_take_of_le (Nat.le_of_lt hlt)
    have hne : p.bytes.take k ≠ [] := List.ne_nil_of_length_pos (by omega)
    rw [if_neg hzero, if_pos hheader, found, scan,
      Chunk.takeHeader?_of_short hne (by omega) h]
  · -- from here on the header is whole, and bytes of the body are missing
    have hbody : (p.body.take (k - Chunk.headerBytes)).length < p.body.length := by
      rw [p.length_bytes] at hlt
      rw [List.length_take]
      omega
    rw [Piece.take_bytes (Nat.le_of_not_lt hheader)] at h
    rw [if_neg hzero, if_neg hheader, found_cut hbody h]

/-- **What a reader gives in front of a piece that is cut short.** -/
theorem nth_cut (hlt : k < p.bytes.length) (h : source.Holds (p.bytes.take k) none) (n : Nat) :
    nth { source, chunk := place, decompress } n = (p.remnant k)[n]? := by
  have hfound : found { source, chunk := place, decompress } = _ := found_take hlt h
  unfold Piece.remnant
  split_ifs at hfound ⊢
  · exact nth_of_found_none rfl hfound n
  · exact nth_of_found_error rfl hfound n
  · exact nth_of_found_none rfl hfound n
  · exact nth_of_found_error rfl hfound n
  · exact nth_of_found_error rfl hfound n

end Reader

end Remnant

/-! ### The header of an archive -/

section Header

variable {decompress : Bytes → Nat → Option Bytes} {source : Source} {bytes rest : Bytes}
  {fault : Option IoError} {k : Nat}

/-- A file that is shorter than its first eight bytes cannot be read. -/
theorem start_of_lt (hlt : bytes.length < magic.length) (h : source.Holds bytes fault) :
    Reader.startUsing decompress source = .error (.io (fault.getD .unexpectedEnd)) := by
  rw [Reader.startUsing, h.take_of_lt hlt]

/-- Nor can one that ends in its version. -/
theorem start_of_magic_lt (hlt : rest.length < 4) (h : source.Holds (magic ++ rest) fault) :
    Reader.startUsing decompress source = .error (.io (fault.getD .unexpectedEnd)) := by
  obtain ⟨behind, htake, hbehind⟩ := h.take
  rw [Reader.startUsing, htake]
  dsimp only
  rw [if_neg (by simp), hbehind.word_of_lt hlt]

/-- **How many bytes tell what a file is**: if it does not begin like an archive, its version does
not matter. -/
def headerEnd (bytes : Bytes) : Nat :=
  if bytes.take magic.length = magic then header.length else magic.length

/-- **Where these bytes are missing** there is the fault, or else the end. -/
theorem start_of_lt_headerEnd (hlt : k < headerEnd bytes)
    (h : source.Holds (bytes.take k) fault) :
    Reader.startUsing decompress source = .error (.io (fault.getD .unexpectedEnd)) := by
  by_cases hmagic : k < magic.length
  · exact start_of_lt (Nat.lt_of_le_of_lt (List.length_take_le _ _) hmagic) h
  · obtain ⟨j, rfl⟩ := Nat.exists_eq_add_of_le (Nat.le_of_not_lt hmagic)
    rw [headerEnd] at hlt
    split at hlt
    · next hbegin =>
      rw [List.take_add, hbegin] at h
      rw [header, List.length_append, Word.length_toBytes] at hlt
      exact start_of_magic_lt (by rw [List.length_take]; omega) h
    · omega

/-- Of an archive, the whole header is needed. -/
theorem headerEnd_append (bytes : Bytes) : headerEnd (header ++ bytes) = header.length := by
  rw [headerEnd, if_pos]
  rw [header, List.append_assoc, List.take_left]

end Header

/-! ### The whole archive -/

section Cut

variable {decompress : Bytes → Nat → Option Bytes} {p : Piece} {k : Nat}

/-- What is left of an archive that is cut in a piece. -/
theorem take_of_cut (before after : List Piece) {whole : Bytes}
    (hwhole : whole = header ++ before.flatMap Piece.bytes) (hlt : k < p.bytes.length) :
    (header ++ (before ++ p :: after).flatMap Piece.bytes).take (whole.length + k) =
      header ++ (before.flatMap Piece.bytes ++ p.bytes.take k) := by
  rw [List.flatMap_append, List.flatMap_cons, ← List.append_assoc, ← hwhole,
    List.take_length_add_append, List.take_append_of_le_length (Nat.le_of_lt hlt), hwhole,
    List.append_assoc]

/-- **An archive that is cut in a piece** is given as what is in the pieces before it, and then of
this one what is given of its beginning. -/
theorem read_cut (decompress : Bytes → Nat → Option Bytes) (before : List Piece)
    (hlt : k < p.bytes.length) :
    Reads decompress (.ofBytes (header ++ (before.flatMap Piece.bytes ++ p.bytes.take k)))
      (throughError (Piece.segments decompress 0 before ++ p.remnant k)) := by
  have hsource := Source.holds_ofBytes (header ++ (before.flatMap Piece.bytes ++ p.bytes.take k))
  refine read_pieces before (fun source h n => ?_) ?_ hsource
  · rw [throughError_remnant]
    exact Reader.nth_cut hlt h n
  · exact Nat.le_trans (length_remnant_le p k) (Nat.le_add_left 1 _)

/-- **A cut in a chunk that is passed over is noticed in its header only.** With `k` bytes of such a
chunk at its end, an archive gives what it would give if it ended before the chunk, and an error at
the end if `k` does not get beyond the header; so it loads from the ninth byte on, if it would load
without the chunk. -/
theorem cut_noticed_iff {σ : Type} (decompress : Bytes → Nat → Option Bytes)
    (before after : List Piece) (hp : p.isSegment = false) (hk : 0 < k) (hlt : k < p.bytes.length)
    {whole cut : Bytes}
    (hwhole : whole = header ++ before.flatMap Piece.bytes)
    (hcut : cut =
      (header ++ (before ++ p :: after).flatMap Piece.bytes).take (whole.length + k)) :
    ∃ found given, itemsUsing decompress (.ofBytes whole) = .ok found ∧
      itemsUsing decompress (.ofBytes cut) = .ok given ∧
      given = throughError
        (found ++ if k < Chunk.headerBytes then [.error (.io .unexpectedEnd)] else []) ∧
      ((∃ e, .error e ∈ given) ↔ k < Chunk.headerBytes ∨ ∃ e, .error e ∈ found) ∧
      (loadUsing decompress (.ofBytes cut) : Except ArchiveError (Trajectory σ)) =
        if k < Chunk.headerBytes then
          (loadUsing decompress (.ofBytes whole) : Except ArchiveError (Trajectory σ)).bind
            fun _ => .error (.io .unexpectedEnd)
        else loadUsing decompress (.ofBytes whole) := by
  have hremnant : p.remnant k =
      if k < Chunk.headerBytes then [.error (.io .unexpectedEnd)] else [] := by
    rw [Piece.remnant, if_neg (by omega), hp]
    rfl
  obtain ⟨-, -, -, hgiven⟩ := read_cut decompress before hlt
  obtain ⟨-, -, -, hfound⟩ := read_whole decompress before
  rw [← take_of_cut before after hwhole hlt, ← hcut, hremnant] at hgiven
  rw [← hwhole] at hfound
  refine ⟨_, _, hfound, hgiven, (throughError_append _ _).symm, ?_, ?_⟩
  · rw [exists_error_throughError_iff, exists_error_throughError_iff]
    split_ifs with h <;> simp [h]
  · rw [load_of_items hgiven, load_of_items hfound, assemble_throughError, assemble_throughError,
      assemble_append]
    split_ifs with h
    · rfl
    · cases assemble ({} : Trajectory σ) (Piece.segments decompress 0 before) <;> rfl

/-- Behind a segment, half of the header of a note. -/
theorem cut_noticed_in_header :
    ∃ cut : Bytes, items (.ofBytes cut) =
        .ok [.ok ⟨1, [7], [[.origin]]⟩, .error (.io .unexpectedEnd)] ∧
      (load (.ofBytes cut) : Except ArchiveError (Trajectory Unit)) =
        .error (.io .unexpectedEnd) := by
  obtain ⟨found, given, hfound, hgiven, rfl, -, hload⟩ :=
    cut_noticed_iff (σ := Unit) Lz4.decompress
      [Entry.piece Lz4.compress ⟨segmentTag, Segment.encode 1 [7] [[.origin]], rfl⟩
        ⟨by decide, by decide⟩] []
      (p := ⟨[0x4e, 0x4f, 0x54, 0x45], [0x68, 0x69], rfl, by decide⟩) (k := 4)
      rfl (by decide) (by decide) rfl rfl
  obtain rfl : [.ok ⟨1, [7], [[.origin]]⟩] = found := Except.ok.inj (Eq.trans rfl hfound)
  exact ⟨_, hgiven, hload.trans rfl⟩

/-- Behind a segment, a note without its last two bytes: nothing is noticed. -/
theorem cut_unnoticed_in_body :
    let note : Bytes := [0x4e, 0x4f, 0x54, 0x45, 5, 0, 0, 0, 0x68, 0x65, 0x6c, 0x6c, 0x6f]
    let sound := Chunk.bytes Lz4.compress segmentTag (Segment.encode 1 [7] [[.origin]])
    let file := header ++ (sound ++ note)
    items (.ofBytes (file.take (file.length - 2))) = .ok [.ok ⟨1, [7], [[.origin]]⟩] ∧
      ∃ t : Trajectory Unit, load (.ofBytes (file.take (file.length - 2))) = .ok t ∧
        t.frames = [[.origin]] :=
  ⟨rfl, _, rfl, rfl⟩

end Cut

end Archive

end Deposition
