import Deposition.Proofs.Archive.Lengths
import Deposition.Proofs.Archive.Truncation
import Mathlib.Data.List.Forall2

/-!
# Archives that are not finished

A program that is stopped while it archives a job leaves the beginning of an archive, and the cut
may be anywhere. What is hoped for is that only the unfinished segment is lost, and that the loss is
noticed (`Deposition.Archive.LosesUnfinished`): there are the segments of the chunks that are whole,
and then an error unless the file ends between two chunks.

A reader has nothing to go by but the number of bytes that follow a header, so this comes down to
whether that number is right. A chunk whose number is right and in which there is a segment is a
piece that gives the segment (`Deposition.Archive.Piece.Gives`), and such a piece cannot be cut
without being missed. A chunk whose number is too small is a piece that ends within its block, and
a few bytes more (`Deposition.Archive.written_eq_seen_append`); these are too few for a header, so
that there is an error even if the chunk is whole. Both together say how far an archive may be cut
as is hoped for: up to the first chunk whose number of bytes that follow is no word
(`Deposition.Archive.cut_loses_unfinished_iff`).
-/

namespace Deposition

namespace Archive

variable {compress : Bytes → Bytes} {decompress : Bytes → Nat → Option Bytes} {p : Piece}
  {s : Segment} {pieces : List Piece} {segments : List Segment} {buffers chunks : List Bytes}
  {k m n : Nat} {σ : Type}

/-! ### Chunks whose lengths are right -/

/-- **A piece in which there is a segment**, where one is expected. -/
structure Piece.Gives (decompress : Bytes → Nat → Option Bytes) (p : Piece) (s : Segment) :
    Prop where
  /-- A segment is expected in the piece. -/
  isSegment : p.isSegment = true
  /-- It is there. -/
  segment_eq (place : Nat) : p.segment decompress place = .ok s

/-- A body that was read is not too short for the length of its contents. -/
theorem Piece.Gives.lengthBytes_le (h : p.Gives decompress s) :
    Chunk.lengthBytes ≤ p.body.length := by
  by_contra hshort
  have hs := h.segment_eq 0
  rw [segment, Chunk.takeBody_of_lt (Nat.lt_of_not_le hshort)] at hs
  cases hs

/-- Such a piece cannot be cut without being missed. -/
theorem Piece.Gives.remnant_eq (h : p.Gives decompress s) (k : Nat) :
    p.remnant k = if k = 0 then [] else [.error (.io .unexpectedEnd)] := by
  have hbody := h.lengthBytes_le
  rw [remnant, h.isSegment, if_neg (Nat.not_lt.mpr hbody)]
  split_ifs <;> simp_all

theorem segments_of_gives (h : List.Forall₂ (Piece.Gives decompress) pieces segments)
    (place : Nat) : Piece.segments decompress place pieces = segments.map .ok := by
  induction h generalizing place with
  | nil => rfl
  | cons hp _ ih => simp [Piece.segments_cons, hp.isSegment, hp.segment_eq, ih]

/-- What was written of contents whose number of following bytes is a word. -/
theorem bytes_of_encodeUsing {tag payload chunk : Bytes}
    (h : Chunk.encodeUsing compress tag payload = .ok chunk)
    (hfollowing : Chunk.lengthBytes + (compress payload).length < Chunk.wordCount) :
    Chunk.Fits compress payload ∧ chunk = Chunk.bytes compress tag payload := by
  obtain ⟨-, hrefused⟩ | ⟨⟨hpayload, -⟩, -⟩ := Chunk.encodeUsing_cases compress tag payload
  · rw [hrefused] at h
    cases h
  have hfits : Chunk.Fits compress payload := ⟨hpayload, hfollowing⟩
  rw [Chunk.encodeUsing_eq hfits] at h
  exact ⟨hfits, (Except.ok.inj h).symm⟩

/-- **Chunks of buffers that can be decoded** are pieces in which there are the segments. -/
theorem exists_pieces_of_written (hlz : Compresses compress decompress)
    (hwritten : List.Forall₂ (fun buffer chunk => rawChunkUsing compress buffer = .ok chunk)
      buffers chunks)
    (hdecodes : List.Forall₂ (fun buffer segment => Segment.decode buffer = .ok segment)
      buffers segments)
    (hfollowing : ∀ buffer ∈ buffers,
      Chunk.lengthBytes + (compress buffer).length < Chunk.wordCount) :
    ∃ pieces : List Piece, pieces.map Piece.bytes = chunks ∧
      List.Forall₂ (Piece.Gives decompress) pieces segments := by
  induction hwritten generalizing segments with
  | nil =>
    cases hdecodes
    exact ⟨[], rfl, .nil⟩
  | @cons buffer chunk buffers chunks hchunk _ ih =>
    obtain _ | ⟨hdecode, hdecodes⟩ := hdecodes
    obtain ⟨hfirst, hfollowing⟩ := List.forall_mem_cons.mp hfollowing
    obtain ⟨pieces, hbytes, hgives⟩ := ih hdecodes hfollowing
    obtain ⟨hfits, rfl⟩ := bytes_of_encodeUsing hchunk hfirst
    let e : Entry := ⟨segmentTag, buffer, rfl⟩
    refine ⟨e.piece compress hfits :: pieces, ?_, .cons ⟨rfl, fun place => ?_⟩ hgives⟩
    · rw [List.map_cons, Entry.bytes_piece, hbytes]
      rfl
    · rw [Entry.segment_piece hlz, hdecode]
      rfl

/-! ### Chunks whose number of bytes is too small -/

section Uncounted

variable {payload block : Bytes}

theorem length_segmentTag : segmentTag.length = 4 := rfl

theorem length_front_lt (payload block : Bytes) :
    (Word.toBytes (UInt32.ofNat payload.length) ++
      block.take (Chunk.wordCount - 1 - Chunk.lengthBytes)).length < Chunk.wordCount := by
  have hword : Chunk.lengthBytes < Chunk.wordCount := by decide
  rw [List.length_append, Word.length_toBytes, List.length_take]
  rw [Chunk.lengthBytes] at *
  omega

/-- **What a reader sees of a chunk of a segment** whose number of bytes that follow stops at the
greatest word: a piece that ends within the block. -/
def seen (payload block : Bytes) : Piece where
  tag := segmentTag
  body := Word.toBytes (UInt32.ofNat payload.length) ++
    block.take (Chunk.wordCount - 1 - Chunk.lengthBytes)
  length_tag := length_segmentTag
  length_body := length_front_lt payload block

/-- Such a chunk is what is seen of it, and the end of its block. -/
theorem written_eq_seen_append (hlong : Chunk.wordCount ≤ Chunk.lengthBytes + block.length) :
    Chunk.written segmentTag payload block =
      (seen payload block).bytes ++ block.drop (Chunk.wordCount - 1 - Chunk.lengthBytes) := by
  have hword : Chunk.lengthBytes < Chunk.wordCount := by decide
  have hlength : (seen payload block).body.length =
      min (Chunk.lengthBytes + block.length) (Chunk.wordCount - 1) := by
    rw [seen, List.length_append, Word.length_toBytes, List.length_take]
    rw [Chunk.lengthBytes] at *
    omega
  rw [Chunk.written, Chunk.followingField, ← hlength, Piece.bytes]
  simp only [seen, List.append_assoc, List.take_append_drop]

/-- **Behind whole pieces, such a chunk ends with an error**, though it is whole itself: what is
behind that which is seen of it is no header. -/
theorem read_uncounted (decompress : Bytes → Nat → Option Bytes) (payload : Bytes)
    (before : List Piece)
    (hlong : Chunk.wordCount ≤ Chunk.lengthBytes + block.length)
    (hword : block.length < Chunk.wordCount) :
    Reads decompress (.ofBytes (header ++
        (before.flatMap Piece.bytes ++ Chunk.written segmentTag payload block)))
      (throughError (Piece.segments decompress 0 (before ++ [seen payload block]) ++
        [.error (.io .unexpectedEnd)])) := by
  obtain ⟨rest, hrest⟩ : ∃ rest, rest = block.drop (Chunk.wordCount - 1 - Chunk.lengthBytes) :=
    ⟨_, rfl⟩
  have hlength : 0 < rest.length ∧ rest.length < Chunk.headerBytes := by
    have hwords : Chunk.lengthBytes < Chunk.wordCount := by decide
    rw [hrest, List.length_drop]
    rw [Chunk.lengthBytes, Chunk.headerBytes] at *
    omega
  have hbytes : before.flatMap Piece.bytes ++ Chunk.written segmentTag payload block =
      (before ++ [seen payload block]).flatMap Piece.bytes ++ rest := by
    rw [written_eq_seen_append hlong, ← hrest, List.flatMap_append, List.flatMap_singleton,
      List.append_assoc]
  rw [hbytes]
  refine read_pieces _ (fun source h n => ?_) (Nat.le_add_left 1 _) (Source.holds_ofBytes _)
  refine Reader.nth_of_found_error rfl ?_ n
  rw [Reader.found, Reader.scan,
    Chunk.takeHeader?_of_short (List.ne_nil_of_length_pos hlength.1) hlength.2 h]
  rfl

/-- What is in the front of the block is read as a segment, if anything is. -/
theorem segment_seen (decompress : Bytes → Nat → Option Bytes) (payload block : Bytes)
    (place : Nat) : (seen payload block).segment decompress place =
      match decompress (block.take (Chunk.wordCount - 1 - Chunk.lengthBytes))
        (UInt32.ofNat payload.length).toNat with
      | some contents => (Segment.decode contents).mapError (.codec place)
      | none => .error (.io .badCompression) := by
  have hholds := Source.holds_ofBytes (Word.toBytes (UInt32.ofNat payload.length) ++
    block.take (Chunk.wordCount - 1 - Chunk.lengthBytes))
  rw [← List.append_nil (_ ++ _)] at hholds
  obtain ⟨behind, -, hbody⟩ : ∃ behind : Source, behind.Holds [] none ∧
      Chunk.takeBodyUsing decompress _ _ = _ := Chunk.takeBody_of_holds hholds
  rw [List.append_nil] at hbody
  rw [Piece.segment]
  dsimp only [seen]
  rw [hbody]
  cases decompress (block.take (Chunk.wordCount - 1 - Chunk.lengthBytes))
    (UInt32.ofNat payload.length).toNat <;> rfl

/-- **An archive of one such chunk, of literals, gives an error and nothing else.** -/
theorem read_uncounted_literals
    (hlong : Chunk.wordCount ≤ Chunk.lengthBytes + (Lz4.compress payload).length)
    (hword : (Lz4.compress payload).length < Chunk.wordCount) :
    Reads Lz4.decompress (.ofBytes (header ++
        Chunk.written segmentTag payload (Lz4.compress payload)))
      [.error (.io .badCompression)] := by
  have hread := read_uncounted Lz4.decompress payload [] hlong hword
  have hseen : (seen payload (Lz4.compress payload)).segment Lz4.decompress 0 =
      .error (.io .badCompression) := by
    rw [segment_seen, Chunk.decompress_uncounted hlong hword]
  rw [List.nil_append, Piece.segments_cons, hseen] at hread
  exact hread

end Uncounted

/-! ### Where chunks end -/

/-- How long an archive is when it has got so many of its chunks. -/
def boundary (chunks : List Bytes) (k : Nat) : Nat := (header ++ (chunks.take k).flatten).length

theorem boundary_mono (chunks : List Bytes) (h : k ≤ m) :
    boundary chunks k ≤ boundary chunks m := by
  obtain ⟨j, rfl⟩ := Nat.exists_eq_add_of_le h
  simp only [boundary, List.take_add, List.flatten_append, List.length_append]
  omega

theorem boundary_succ (h : k < chunks.length) :
    boundary chunks (k + 1) = boundary chunks k + chunks[k].length := by
  rw [boundary, List.take_add_one, List.getElem?_eq_getElem h, Option.toList_some,
    List.flatten_append, List.flatten_singleton, ← List.append_assoc, List.length_append, boundary]

theorem boundary_take (h : k ≤ m) : boundary (chunks.take m) k = boundary chunks k := by
  rw [boundary, List.take_take, Nat.min_eq_left h, boundary]

theorem boundary_append (before after : List Piece) :
    boundary ((before ++ after).map Piece.bytes) before.length =
      (header ++ before.flatMap Piece.bytes).length := by
  simp [boundary, List.flatMap_def]

theorem boundary_append_succ (before : List Piece) (p : Piece) (after : List Piece) :
    boundary ((before ++ p :: after).map Piece.bytes) (before.length + 1) =
      (header ++ before.flatMap Piece.bytes).length + p.bytes.length := by
  have h := boundary_append (before ++ [p]) after
  simpa [Nat.add_assoc] using h

/-- **A cut is behind the last piece, or in one of them** and behind all that come before it. -/
theorem exists_of_le_length {start : Bytes} (hstart : start.length ≤ n)
    (h : n ≤ (start ++ pieces.flatMap Piece.bytes).length) :
    n = (start ++ pieces.flatMap Piece.bytes).length ∨
      ∃ before p after k, pieces = before ++ p :: after ∧ k < p.bytes.length ∧
        n = (start ++ before.flatMap Piece.bytes).length + k := by
  induction pieces generalizing start with
  | nil =>
    rw [List.flatMap_nil, List.append_nil] at h ⊢
    exact .inl (Nat.le_antisymm h hstart)
  | cons p pieces ih =>
    -- a cut that is not in the first piece is one of the others, behind a longer start
    by_cases hfirst : n < (start ++ p.bytes).length
    · refine .inr ⟨[], p, pieces, n - start.length, rfl, ?_, ?_⟩
      · rw [List.length_append] at hfirst
        omega
      · rw [List.flatMap_nil, List.append_nil]
        omega
    · rw [List.flatMap_cons, ← List.append_assoc] at h ⊢
      obtain hend | ⟨before, q, after, k, rfl, hk, hn⟩ := ih (Nat.le_of_not_lt hfirst) h
      · exact .inl hend
      · refine .inr ⟨p :: before, q, after, k, rfl, hk, ?_⟩
        rw [List.flatMap_cons, ← List.append_assoc]
        exact hn

/-! ### What is lost -/

/-- What there is of an archive of these chunks when `n` bytes have been written. -/
def begun (chunks : List Bytes) (n : Nat) : Source := .ofBytes ((header ++ chunks.flatten).take n)

/-- What there is when the first chunks have been written. -/
theorem begun_boundary (chunks : List Bytes) (k : Nat) :
    begun chunks (boundary chunks k) = .ofBytes (header ++ (chunks.take k).flatten) := by
  conv_lhs => rw [begun, ← List.take_append_drop k chunks, List.flatten_append,
    ← List.append_assoc, boundary]
  rw [List.take_append_drop, List.take_left]

/-- **Only what is not finished is lost, and the loss is noticed**, when `n` bytes are left of an
archive of these chunks, in which there are these segments. -/
structure LosesUnfinished (σ : Type) (decompress : Bytes → Nat → Option Bytes)
    (chunks : List Bytes) (segments : List Segment) (n : Nat) : Prop where
  /-- If the header is not whole, the archive cannot be read. -/
  of_lt : n < header.length →
    Reader.startUsing decompress (begun chunks n) = .error (.io .unexpectedEnd) ∧
    (loadUsing decompress (begun chunks n) : Except ArchiveError (Trajectory σ)) =
      .error (.io .unexpectedEnd)
  /-- Otherwise there are `k` whole chunks, and a reader gives their segments in order, and then an
  error unless the file ends there, and nothing more. So the archive makes a trajectory only if it
  ends between two chunks, and its frames are those of the first `k` segments. -/
  of_le : header.length ≤ n → ∃ k ≤ chunks.length,
    boundary chunks k ≤ n ∧ (k < chunks.length → n < boundary chunks (k + 1)) ∧
    (∃ r, Reader.startUsing decompress (begun chunks n) = .ok r ∧
      ∀ i, r.nth i = ((segments.take k).map .ok ++
        if n = boundary chunks k then [] else [.error (.io .unexpectedEnd)])[i]?) ∧
    ((∃ t : Trajectory σ, loadUsing decompress (begun chunks n) = .ok t) ↔
      n = boundary chunks k ∧
        ∀ r ∈ segments.take k, ∀ s ∈ segments.take k, r.species = s.species) ∧
    ∀ t : Trajectory σ, loadUsing decompress (begun chunks n) = .ok t →
      t.frames = (segments.take k).flatMap Segment.frames

/-- An archive of which not even the header is there cannot be read. -/
theorem start_take_of_lt (decompress : Bytes → Nat → Option Bytes) (h : n < header.length)
    (bytes : Bytes) : Reader.startUsing decompress (.ofBytes ((header ++ bytes).take n)) =
      .error (.io .unexpectedEnd) := by
  rw [← headerEnd_append bytes] at h
  exact start_of_lt_headerEnd h (Source.holds_ofBytes _)

/-- Segments make a trajectory if their species agree, which then is made of them. -/
theorem load_of_segments {source : Source}
    (h : itemsUsing decompress source = .ok (segments.map .ok)) :
    ((∃ t : Trajectory σ, loadUsing decompress source = .ok t) ↔
      ∀ r ∈ segments, ∀ s ∈ segments, r.species = s.species) ∧
    ∀ t : Trajectory σ, loadUsing decompress source = .ok t → t.MadeOf segments := by
  rw [load_of_items h]
  refine ⟨?_, fun t ht => ?_⟩
  · simp only [exists_assemble_iff, List.mem_map, Except.ok.injEq, exists_eq_right,
      forall_exists_index, and_imp, forall_apply_eq_imp_iff₂, exists_eq', implies_true, true_and]
    exact ⟨fun h r hr s hs => h r s hr hs, fun h r s hr hs => h r hr s hs⟩
  obtain ⟨others, hothers, hmade⟩ := madeOf_of_assemble (Trajectory.madeOf_nil []) ht
  obtain rfl := List.map_injective_iff.mpr (fun _ _ => Except.ok.inj) hothers
  exact hmade

/-- **What is given of an archive of segments** of which so many bytes are there. -/
theorem read_begun (hgives : List.Forall₂ (Piece.Gives decompress) pieces segments)
    (hheader : header.length ≤ n) (hn : n ≤ boundary (pieces.map Piece.bytes) pieces.length) :
    ∃ k ≤ pieces.length, boundary (pieces.map Piece.bytes) k ≤ n ∧
      (k < pieces.length → n < boundary (pieces.map Piece.bytes) (k + 1)) ∧
      Reads decompress (begun (pieces.map Piece.bytes) n) ((segments.take k).map .ok ++
        if n = boundary (pieces.map Piece.bytes) k then []
        else [.error (.io .unexpectedEnd)]) := by
  have hend := boundary_append pieces []
  rw [List.append_nil] at hend
  rw [hend] at hn
  rw [begun, ← List.flatMap_def]
  obtain rfl | ⟨before, p, after, cut, rfl, hcut, rfl⟩ := exists_of_le_length hheader hn
  · have hread := read_whole decompress pieces
    have hall := throughError_ok_append segments ([] : List (Except ArchiveError Segment))
    rw [List.append_nil] at hall
    rw [segments_of_gives hgives, hall] at hread
    refine ⟨pieces.length, Nat.le_refl _, Nat.le_of_eq hend,
      fun h => absurd h (Nat.lt_irrefl _), ?_⟩
    rwa [List.take_length, if_pos hend.symm, hgives.length_eq, List.take_length]
  · have hread := read_cut decompress before hcut
    have hbehind := boundary_append before (p :: after)
    have hnext := boundary_append_succ before p after
    have hbefore :
        List.Forall₂ (Piece.Gives decompress) before (segments.take before.length) := by
      simpa using List.forall₂_take before.length hgives
    obtain ⟨s, hp⟩ : ∃ s, p.Gives decompress s := by
      have hrest := List.forall₂_drop before.length hgives
      rw [List.drop_left] at hrest
      obtain ⟨s, -, hp, -⟩ := List.forall₂_cons_left_iff.mp hrest
      exact ⟨s, hp⟩
    refine ⟨before.length, by simp, by omega, fun _ => by omega, ?_⟩
    rw [take_of_cut before after rfl hcut, hbehind]
    rw [segments_of_gives hbefore, throughError_ok_append, throughError_remnant,
      hp.remnant_eq] at hread
    by_cases hzero : cut = 0
    · rw [if_pos hzero] at hread
      rwa [if_pos (by omega)]
    · rw [if_neg hzero] at hread
      rwa [if_neg (by omega)]

/-- **Pieces that give segments** lose only what is not finished, wherever they are cut. -/
theorem losesUnfinished_of_gives (σ : Type)
    (hgives : List.Forall₂ (Piece.Gives decompress) pieces segments)
    (hn : n ≤ boundary (pieces.map Piece.bytes) pieces.length) :
    LosesUnfinished σ decompress (pieces.map Piece.bytes) segments n := by
  refine ⟨fun hheader => ?_, fun hheader => ?_⟩
  · have hstart := start_take_of_lt decompress hheader (pieces.map Piece.bytes).flatten
    rw [← begun] at hstart
    refine ⟨hstart, ?_⟩
    rw [loadUsing, itemsUsing, hstart]
    rfl
  · obtain ⟨k, hk, hle, hlt, r, hstart, hnth, hitems⟩ := read_begun hgives hheader hn
    rw [List.length_map]
    refine ⟨k, hk, hle, hlt, ⟨r, hstart, hnth⟩, ?_⟩
    by_cases hend : n = boundary (pieces.map Piece.bytes) k
    · rw [if_pos hend, List.append_nil] at hitems
      obtain ⟨hload, hmade⟩ := load_of_segments (σ := σ) hitems
      exact ⟨by simpa [hend] using hload, fun t ht => (hmade t ht).frames_eq⟩
    · rw [if_neg hend] at hitems
      have hfails (t : Trajectory σ) :=
        load_ne_ok_of_error hitems (List.mem_append_right _ List.mem_cons_self) t
      exact ⟨iff_of_false (not_exists.mpr hfails) fun h => hend h.1,
        fun t ht => absurd ht (hfails t)⟩

/-- **Chunks behind the cut make no difference**, as long as there is anything in them. -/
theorem LosesUnfinished.of_take (hne : ∀ chunk ∈ chunks, chunk ≠ []) (hm : m ≤ chunks.length)
    (hn : n ≤ boundary chunks m)
    (h : LosesUnfinished σ decompress (chunks.take m) (segments.take m) n) :
    LosesUnfinished σ decompress chunks segments n := by
  have hbegun : begun (chunks.take m) n = begun chunks n := by
    rw [boundary] at hn
    conv_rhs => rw [begun, ← List.take_append_drop m chunks, List.flatten_append,
      ← List.append_assoc, List.take_append_of_le_length hn]
    rfl
  obtain ⟨hlt, hle⟩ := h
  rw [hbegun] at hlt hle
  refine ⟨hlt, fun hheader => ?_⟩
  obtain ⟨k, hk, hbehind, hnext, hreads⟩ := hle hheader
  rw [List.length_take_of_le hm] at hk hnext
  rw [boundary_take hk] at hbehind hreads
  rw [List.take_take, Nat.min_eq_left hk] at hreads
  refine ⟨k, Nat.le_trans hk hm, hbehind, fun hlast => ?_, hreads⟩
  by_cases hkm : k < m
  · rw [← boundary_take hkm]
    exact hnext hkm
  · -- the cut is where the last of these chunks ends, and the next one is not empty
    obtain rfl : k = m := Nat.le_antisymm hk (Nat.le_of_not_lt hkm)
    have hpos := List.length_pos_of_ne_nil (hne _ (List.getElem_mem hlast))
    rw [boundary_succ hlast]
    omega

/-- **Where a chunk ends nothing is missing**: nothing is lost there, so there is no error. -/
theorem LosesUnfinished.not_exists_error (hk : k ≤ chunks.length)
    (h : LosesUnfinished σ decompress chunks segments (boundary chunks k))
    {given : List (Except ArchiveError Segment)}
    (hread : Reads decompress (begun chunks (boundary chunks k)) given) :
    ¬∃ e, .error e ∈ given := by
  have hheader : header.length ≤ boundary chunks k := by
    rw [boundary, List.length_append]
    exact Nat.le_add_right _ _
  obtain ⟨j, -, hle, hlt, ⟨r, hstart, hnth⟩, -⟩ := h.of_le hheader
  have hend : boundary chunks k = boundary chunks j := by
    refine Nat.le_antisymm (boundary_mono chunks ?_) hle
    by_contra hjk
    have hj : j < k := Nat.lt_of_not_le hjk
    exact absurd (boundary_mono chunks (Nat.succ_le_of_lt hj)) (Nat.not_le.mpr (hlt (by omega)))
  rw [if_pos hend, List.append_nil] at hnth
  obtain ⟨r', hstart', hnth', -⟩ := hread
  obtain rfl : r = r' := Except.ok.inj (hstart.symm.trans hstart')
  obtain rfl : given = (segments.take j).map .ok :=
    List.ext_getElem? fun i => (hnth' i).symm.trans (hnth i)
  rintro ⟨e, he⟩
  obtain ⟨s, -, hs⟩ := List.mem_map.mp he
  cases hs

/-- What was written is a chunk of a segment, whether its lengths are right or not. -/
theorem written_of_rawChunkUsing {buffer chunk : Bytes}
    (h : rawChunkUsing compress buffer = .ok chunk) :
    chunk = Chunk.written segmentTag buffer (compress buffer) ∧
      (compress buffer).length < Chunk.wordCount := by
  rw [rawChunkUsing] at h
  obtain ⟨-, hrefused⟩ | ⟨⟨-, hword⟩, hwritten⟩ :=
    Chunk.encodeUsing_cases compress segmentTag buffer
  · rw [hrefused] at h
    cases h
  · exact ⟨Except.ok.inj (h.symm.trans hwritten), hword⟩

section Written

variable (hlz : Compresses compress decompress)
  (hwritten : List.Forall₂ (fun buffer chunk => rawChunkUsing compress buffer = .ok chunk)
    buffers chunks)
  (hdecodes : List.Forall₂ (fun buffer segment => Segment.decode buffer = .ok segment)
    buffers segments)
  (hcounted : ∀ buffer ∈ buffers.take m,
    Chunk.lengthBytes + (compress buffer).length < Chunk.wordCount)

include hlz hwritten hdecodes hcounted

/-- **As far as the chunks say how many bytes follow**, only what is not finished is lost. -/
theorem losesUnfinished_of_counted (σ : Type) (hm : m ≤ chunks.length)
    (hn : n ≤ boundary chunks m) : LosesUnfinished σ decompress chunks segments n := by
  obtain ⟨pieces, hbytes, hgives⟩ := exists_pieces_of_written hlz (List.forall₂_take m hwritten)
    (List.forall₂_take m hdecodes) hcounted
  have hlength : pieces.length = m := by
    rw [← List.length_map Piece.bytes, hbytes, List.length_take_of_le hm]
  have hne : ∀ chunk ∈ chunks, chunk ≠ [] := by
    intro chunk hchunk
    obtain ⟨k, hk, rfl⟩ := List.getElem_of_mem hchunk
    obtain ⟨heq, -⟩ := written_of_rawChunkUsing (hwritten.get (hwritten.length_eq ▸ hk) hk)
    rw [List.get_eq_getElem] at heq
    rw [heq]
    exact List.cons_ne_nil _ _
  refine LosesUnfinished.of_take hne hm hn ?_
  rw [← hbytes]
  refine losesUnfinished_of_gives σ hgives ?_
  rwa [hbytes, hlength, boundary_take (Nat.le_refl m)]

/-- **Behind them, one that does not say it** is lost although it is finished. -/
theorem not_losesUnfinished_of_uncounted (hm : m < chunks.length) (hbuffer : m < buffers.length)
    (huncounted : Chunk.wordCount ≤ Chunk.lengthBytes + (compress buffers[m]).length) :
    ¬LosesUnfinished σ decompress chunks segments (boundary chunks (m + 1)) := by
  obtain ⟨pieces, hbytes, -⟩ := exists_pieces_of_written hlz (List.forall₂_take m hwritten)
    (List.forall₂_take m hdecodes) hcounted
  obtain ⟨hchunk, hword⟩ := written_of_rawChunkUsing (hwritten.get hbuffer hm)
  have hread := read_uncounted decompress buffers[m] pieces huncounted hword
  have hbegun : begun chunks (boundary chunks (m + 1)) = .ofBytes (header ++
      (pieces.flatMap Piece.bytes ++
        Chunk.written segmentTag buffers[m] (compress buffers[m]))) := by
    rw [begun_boundary, List.take_add_one, List.getElem?_eq_getElem hm, Option.toList_some,
      List.flatten_append, List.flatten_singleton, ← hbytes, List.flatMap_def]
    exact congrArg (fun chunk => Source.ofBytes (header ++ (_ ++ chunk))) hchunk
  rw [← hbegun] at hread
  exact fun h => h.not_exists_error hm hread
    ((exists_error_throughError_iff _).mpr ⟨_, List.mem_append_right _ List.mem_cons_self⟩)

end Written

/-- **A cut loses the unfinished segment only, and is noticed, exactly if every chunk says how many
bytes follow.** Buffers that can be decoded are written chunk by chunk. Wherever the archive is cut
up to the end of its `m`-th chunk, there are the segments of the chunks that are whole, and then an
error unless it ends between two chunks, if and only if for each of these `m` chunks the number of
bytes that follow is a word. For one block in which it is none, but whose own length is a word, the
chunk is not refused, and what was written is lost when all of it is there. -/
theorem cut_loses_unfinished_iff (hlz : Compresses compress decompress)
    (hwritten : List.Forall₂ (fun buffer chunk => rawChunkUsing compress buffer = .ok chunk)
      buffers chunks)
    (hdecodes : List.Forall₂ (fun buffer segment => Segment.decode buffer = .ok segment)
      buffers segments) (hm : m ≤ chunks.length) :
    (∀ n ≤ boundary chunks m, LosesUnfinished σ decompress chunks segments n) ↔
      ∀ buffer ∈ buffers.take m,
        Chunk.lengthBytes + (compress buffer).length < Chunk.wordCount := by
  refine ⟨fun h => ?_, fun hcounted n hn =>
    losesUnfinished_of_counted hlz hwritten hdecodes hcounted σ hm hn⟩
  -- the chunks in front of one whose number is too small are right, so that it is found
  induction m with
  | zero => simp
  | succ m ih =>
    have hbefore := ih (Nat.le_of_succ_le hm) fun n hn =>
      h n (Nat.le_trans hn (boundary_mono chunks (Nat.le_succ m)))
    have hbuffer : m < buffers.length := hwritten.length_eq ▸ hm
    rw [List.take_add_one, List.getElem?_eq_getElem hbuffer, Option.toList_some,
      List.forall_mem_append, List.forall_mem_singleton]
    refine ⟨hbefore, ?_⟩
    by_contra huncounted
    exact not_losesUnfinished_of_uncounted hlz hwritten hdecodes hbefore hm hbuffer
      (Nat.le_of_not_lt huncounted) (h _ (Nat.le_refl _))

/-- Of an archive of two segments the last three bytes are lost, and with them the second one. -/
theorem cut_loses_second :
    ∃ (file : Bytes) (r : Reader), Reader.start (.ofBytes (file.take (file.length - 3))) = .ok r ∧
      r.nth 0 = some (.ok ⟨1, [7], [[.origin]]⟩) ∧
      r.nth 1 = some (.error (.io .unexpectedEnd)) ∧ r.nth 2 = none ∧ r.nth 9 = none ∧
      ∀ t : Trajectory Unit, load (.ofBytes (file.take (file.length - 3))) ≠ .ok t := by
  let buffers := [Segment.encode 1 [7] [[.origin]], Segment.encode 2 [7] [[.origin]]]
  let chunks := buffers.map (Chunk.bytes Lz4.compress segmentTag)
  have hfits : ∀ buffer ∈ buffers, Chunk.Fits Lz4.compress buffer := by
    intro buffer hbuffer
    simp only [buffers, List.mem_cons, List.not_mem_nil, or_false] at hbuffer
    obtain rfl | rfl := hbuffer <;> exact ⟨by decide, by decide⟩
  have hwritten : List.Forall₂ (fun buffer chunk => rawChunkUsing Lz4.compress buffer = .ok chunk)
      buffers chunks :=
    .cons (Chunk.encodeUsing_eq (hfits _ (by simp [buffers])))
      (.cons (Chunk.encodeUsing_eq (hfits _ (by simp [buffers]))) .nil)
  have hdecodes : List.Forall₂ (fun buffer segment => Segment.decode buffer = .ok segment)
      buffers [⟨1, [7], [[.origin]]⟩, ⟨2, [7], [[.origin]]⟩] := .cons rfl (.cons rfl .nil)
  have hloses := (cut_loses_unfinished_iff (σ := Unit) (m := 2) compresses_lz4 hwritten hdecodes
    (Nat.le_refl 2)).mpr fun buffer hbuffer => (hfits buffer hbuffer).following_lt
  obtain ⟨k, hk, hle, hlt, ⟨r, hstart, hnth⟩, hload, -⟩ :=
    (hloses ((header ++ chunks.flatten).length - 3) (Nat.sub_le _ _)).of_le (by decide)
  -- the first chunk is whole and the second is not
  obtain rfl : k = 1 := by
    have htwo : k ≤ 2 := hk
    obtain rfl | rfl | rfl : k = 0 ∨ k = 1 ∨ k = 2 := by omega
    · exact absurd (hlt (by decide)) (by decide)
    · rfl
    · exact absurd hle (by decide)
  have hend : (header ++ chunks.flatten).length - 3 ≠ boundary chunks 1 := by decide
  rw [if_neg hend] at hnth
  exact ⟨_, r, hstart, hnth 0, hnth 1, hnth 2, hnth 9, fun t ht => hend (hload.mp ⟨t, ht⟩).1⟩

/-- **A segment that is lost when nothing is cut**: one without frames, of so many particles that
four more than the block of its buffer, of literals alone, is no word. Its chunk is written, and the
archive of this chunk gives an error in place of the segment. -/
theorem loses_finished_of_many_particles :
    ∃ (segment : Segment) (chunk : Bytes),
      segment = ⟨1, List.replicate 4278190063 (0 : UInt8), []⟩ ∧
      Segment.decode (Segment.encode segment.id segment.species segment.frames) = .ok segment ∧
      segmentChunk segment.id segment.species segment.frames = .ok chunk ∧
      items (begun [chunk] (boundary [chunk] 1)) = .ok [.error (.io .badCompression)] ∧
      ¬LosesUnfinished Unit Lz4.decompress [chunk] [segment] (boundary [chunk] 1) := by
  -- from here on the particles are as many as they are, and are not counted
  obtain ⟨segment, hsegment⟩ : ∃ segment : Segment,
      segment = ⟨1, List.replicate 4278190063 (0 : UInt8), []⟩ := ⟨_, rfl⟩
  have hframes : segment.frames = [] := by rw [hsegment]
  have hspecies : segment.species.length = 4278190063 := by rw [hsegment, List.length_replicate]
  have hwell : segment.WellFormed :=
    Segment.wellFormed_of_frames_eq_nil hframes (by rw [hspecies]; decide)
  obtain ⟨buffer, hbuffer⟩ :
      ∃ buffer, buffer = Segment.encode segment.id segment.species segment.frames := ⟨_, rfl⟩
  have hlength : buffer.length = 4278190075 := by
    rw [hbuffer, Segment.length_encode hwell.length_eq, hframes, hspecies]
    rfl
  have hfollowing := Chunk.following_literals hlength
  have hcount : Chunk.wordCount = 4294967296 := rfl
  have hbytes : Chunk.lengthBytes = 4 := rfl
  have hword : (Lz4.compress buffer).length < Chunk.wordCount := by omega
  let chunk := Chunk.written segmentTag buffer (Lz4.compress buffer)
  have hchunk : segmentChunk segment.id segment.species segment.frames = .ok chunk := by
    rw [segmentChunk, segmentChunkUsing, ← hbuffer, rawChunkUsing]
    exact Chunk.encodeUsing_eq_written (by omega) hword
  have hread : Reads Lz4.decompress (begun [chunk] (boundary [chunk] 1))
      [.error (.io .badCompression)] := by
    rw [begun_boundary, List.take_succ_cons, List.take_zero, List.flatten_singleton]
    exact read_uncounted_literals (Nat.le_of_eq hfollowing.symm) hword
  refine ⟨segment, chunk, hsegment, Segment.decode_encode hwell, hchunk, hread.items_eq,
    fun h => h.not_exists_error (Nat.le_refl 1) hread ⟨_, List.mem_cons_self⟩⟩

end Archive

end Deposition
