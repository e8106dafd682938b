import Deposition.Archive.Reader
import Mathlib.Data.List.Basic

/-!
# Chunks in a row

An archive is a header and then chunks, of which those of one tag hold segments. What is written
chunk by chunk is to be read back chunk by chunk: the contents of the chunks of that tag, in order
and each read as a segment, up to the first that is none (`Deposition.Archive.itemsFrom`). Chunks of
other tags make themselves felt in one way only, which is that an error names its chunk by a place
among all of them. That a reader does give this is shown in `Deposition.Proofs.Archive.Pieces`. How
the chunks were compressed does not matter, as long as a block can be decompressed when the size of
its contents is known (`Deposition.Archive.Compresses`); `compress` and `decompress` stand for any
such choice below, and that they are one is the only property of them that is used.

A chunk has two length fields. `Deposition.Chunk.Fits` says that both lengths are words; a chunk
that does not fit is refused, except that one of the lengths stops at the greatest word instead,
which is why it is asked for here.
-/

namespace Deposition

/-! ### Reading a run of bytes -/

namespace Source

/-- The front of a run of bytes is taken whole. -/
theorem take_ofBytes (bytes rest : Bytes) :
    (ofBytes (bytes ++ rest)).take bytes.length = .ok (bytes, ofBytes rest) := by
  simp [ofBytes, take]

theorem word_ofBytes (w : UInt32) (rest : Bytes) :
    (ofBytes (Word.toBytes w ++ rest)).word = .ok (w, ofBytes rest) := by
  have htake := take_ofBytes (Word.toBytes w) rest
  rw [Word.length_toBytes] at htake
  have hword : Word.take? (Word.toBytes w) = some (w, []) := by
    simpa using Word.take?_toBytes_append w []
  simp only [word, htake, bind, Except.bind, hword]
  rfl

end Source

/-! ### Chunks -/

namespace Chunk

variable {compress : Bytes → Bytes} {decompress : Bytes → Nat → Option Bytes} {tag payload : Bytes}

/-- **Contents that fit a chunk**: both of its length fields are words. -/
structure Fits (compress : Bytes → Bytes) (payload : Bytes) : Prop where
  /-- The length of the contents. -/
  payload_lt : payload.length < wordCount
  /-- The number of bytes that follow, which counts the other length too. -/
  following_lt : lengthBytes + (compress payload).length < wordCount

/-- The bytes of a chunk that fits. -/
def bytes (compress : Bytes → Bytes) (tag payload : Bytes) : Bytes :=
  tag ++ Word.toBytes (UInt32.ofNat (lengthBytes + (compress payload).length)) ++
    Word.toBytes (UInt32.ofNat payload.length) ++ compress payload

/-- Contents that fit are written. -/
theorem encodeUsing_eq (h : Fits compress payload) :
    encodeUsing compress tag payload = .ok (bytes compress tag payload) := by
  have hpayload := h.payload_lt
  have hfollowing := h.following_lt
  rw [encodeUsing, encodeWith, if_neg (by simp only [lengthBytes] at hfollowing; omega),
    Nat.min_eq_left (by omega), bytes]

/-- **The contents of a chunk read back**, if the block can be decompressed. -/
theorem takeBody_ofBytes (hlz : decompress (compress payload) payload.length = some payload)
    (h : Fits compress payload) (rest : Bytes) :
    takeBodyUsing decompress (UInt32.ofNat (lengthBytes + (compress payload).length)).toNat
        (.ofBytes (Word.toBytes (UInt32.ofNat payload.length) ++ (compress payload ++ rest))) =
      .ok (payload, .ofBytes rest) := by
  have hfollowing := UInt32.toNat_ofNat_of_lt' h.following_lt
  have hpayload := UInt32.toNat_ofNat_of_lt' h.payload_lt
  have hlength : lengthBytes + (compress payload).length - lengthBytes =
      (compress payload).length := Nat.add_sub_cancel_left _ _
  rw [takeBodyUsing, hfollowing, if_neg (by omega)]
  simp only [bind, Except.bind, Source.word_ofBytes, hlength, Source.take_ofBytes, hpayload, hlz]
  rfl

end Chunk

/-! ### Archives -/

/-- The error without the place of the chunk that it is about. -/
def ArchiveError.unplaced : ArchiveError → ArchiveError
  | .codec _ error => .codec 0 error
  | error => error

namespace Archive

/-- **Decompressing undoes compressing**: the contents of a block are found again when their length
is known. -/
def Compresses (compress : Bytes → Bytes) (decompress : Bytes → Nat → Option Bytes) : Prop :=
  ∀ payload, decompress (compress payload) payload.length = some payload

/-- The plainest way to compress can be undone. -/
theorem compresses_lz4 : Compresses Lz4.compress Lz4.decompress := fun _ =>
  Lz4.decompress_compress (Nat.le_refl _)

/-- What one chunk is to hold. -/
structure Entry where
  /-- The tag of the chunk. -/
  tag : Bytes
  /-- Its contents. -/
  payload : Bytes
  length_tag : tag.length = 4 := by rfl

namespace Entry

/-- Whether a segment is expected in the chunk. -/
def isSegment (e : Entry) : Bool := e.tag = segmentTag

/-- The chunk, if it fits. -/
def bytes (compress : Bytes → Bytes) (e : Entry) : Bytes :=
  Chunk.bytes compress e.tag e.payload

end Entry

/-- Writes an archive, with a chunk for each entry. The chunk where a segment is expected is the one
that `Deposition.Archive.rawChunkUsing` makes of the same bytes. -/
def writeUsing (compress : Bytes → Bytes) (entries : List Entry) : Except IoError Bytes := do
  let chunks ← entries.mapM fun e => Chunk.encodeUsing compress e.tag e.payload
  return header ++ chunks.flatten

/-- The items up to the first error, which is the last of them. -/
def throughError {ε α : Type} : List (Except ε α) → List (Except ε α)
  | [] => []
  | .ok a :: rest => .ok a :: throughError rest
  | .error e :: _ => [.error e]

/-- **What an archive is to be read as**, when its first chunk has this place: the segments that are
in the chunks where segments are expected, up to the first chunk that holds none. -/
def itemsFrom (place : Nat) (entries : List Entry) : List (Except ArchiveError Segment) :=
  throughError (((entries.zipIdx place).filter fun (e, _) => e.isSegment).map fun (e, i) =>
    (Segment.decode e.payload).mapError (.codec i))

section Items

variable {compress : Bytes → Bytes} {e : Entry} {entries : List Entry} {place : Nat}

theorem itemsFrom_cons_other (h : e.isSegment = false) :
    itemsFrom place (e :: entries) = itemsFrom (place + 1) entries := by
  simp [itemsFrom, h]

theorem itemsFrom_cons_ok {s : Segment} (h : e.isSegment = true)
    (hd : Segment.decode e.payload = .ok s) :
    itemsFrom place (e :: entries) = .ok s :: itemsFrom (place + 1) entries := by
  simp [itemsFrom, h, hd, Except.mapError, throughError]

theorem itemsFrom_cons_error {error : SegmentError} (h : e.isSegment = true)
    (hd : Segment.decode e.payload = .error error) :
    itemsFrom place (e :: entries) = [.error (.codec place error)] := by
  simp [itemsFrom, h, hd, Except.mapError, throughError]

/-- **Chunks of other tags do nothing but count**: without them the items are the same, but for the
place that an error names. -/
theorem map_unplaced_itemsFrom_filter (place place' : Nat) (entries : List Entry) :
    (itemsFrom place' (entries.filter Entry.isSegment)).map
        (Except.mapError ArchiveError.unplaced) =
      (itemsFrom place entries).map (Except.mapError ArchiveError.unplaced) := by
  induction entries generalizing place place' with
  | nil => rfl
  | cons e entries ih =>
    cases h : e.isSegment with
    | false =>
      rw [List.filter_cons_of_neg (by simp [h]), itemsFrom_cons_other h]
      exact ih _ _
    | true =>
      rw [List.filter_cons_of_pos h]
      cases hd : Segment.decode e.payload with
      | ok s =>
        rw [itemsFrom_cons_ok h hd, itemsFrom_cons_ok h hd, List.map_cons, List.map_cons]
        exact congrArg _ (ih _ _)
      | error error =>
        rw [itemsFrom_cons_error h hd, itemsFrom_cons_error h hd]
        rfl

/-- **Entries that fit are written**, each as its chunk. -/
theorem writeUsing_eq (h : ∀ e ∈ entries, Chunk.Fits compress e.payload) :
    writeUsing compress entries = .ok (header ++ entries.flatMap (Entry.bytes compress)) := by
  have hchunks : entries.mapM (fun e => Chunk.encodeUsing compress e.tag e.payload) =
      .ok (entries.map (Entry.bytes compress)) := by
    induction entries with
    | nil => rfl
    | cons e entries ih =>
      obtain ⟨he, hentries⟩ := List.forall_mem_cons.mp h
      rw [List.mapM_cons, Chunk.encodeUsing_eq he, ih hentries]
      rfl
  rw [writeUsing, hchunks, List.flatMap_def]
  rfl

end Items

end Archive

end Deposition
