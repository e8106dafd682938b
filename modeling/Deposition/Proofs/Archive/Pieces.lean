import Deposition.Proofs.Archive.Chunks
import Deposition.Proofs.Bytes.Portions
import Deposition.Proofs.Segment.RoundTrip

/-!
# What a reader gives, chunk by chunk

A reader sees of a chunk its tag, the number of bytes that follow, and those bytes; what they are is
of no concern to it before it has passed them. `Deposition.Archive.Piece` is a chunk as it stands in
a file, with anything in it, and the statement about reading is about these: a reader in front of
pieces gives what is in the pieces where segments are expected, up to the first error, and goes on
with what stands behind them (`Deposition.Archive.Reader.nth_pieces`). What stands behind is
arbitrary, so that the same statement serves a file that ends after a chunk and one that ends
inside.

Two things are needed for it. The bound on the number of chunks is the length of the source, and
since every chunk uses up some of it, the bound is never met
(`Deposition.Archive.Reader.scan_congr`); so a chunk that is passed over leaves a reader that goes
on like one that starts behind it. And what a reader gives is decided by what it finds next, in
three ways: nothing, an error, or a segment and a reader behind it.

Chunks that were written are pieces, if they fit (`Deposition.Archive.Entry.piece`), and what they
are to be read as is what is in them (`Deposition.Archive.exists_pieces`).
-/

namespace Deposition

/-! ### Reading uses up the source -/

namespace Source

theorem size_of_byte? {source rest : Source} {b : UInt8}
    (h : source.byte? = .ok (some (b, rest))) : source.size = rest.size + 1 := by
  fun_induction byte? source with
  | case1 => simp at h
  | case2 rest' ih => simpa [size] using ih h
  | case3 b' bytes rest' =>
    simp only [Except.ok.injEq, Option.some.injEq, Prod.mk.injEq] at h
    rw [← h.2]
    simp only [size, List.length_cons]
    omega
  | case4 rest' ih => simpa [size] using ih h
  | case5 => simp at h

theorem size_of_word {source rest : Source} {w : UInt32} (h : source.word = .ok (w, rest)) :
    source.size = rest.size + 4 := by
  cases htake : source.take 4 with
  | error e => simp [word, htake, bind, Except.bind] at h
  | ok found =>
    obtain ⟨bytes, behind⟩ := found
    have hsize := size_of_take htake
    simp only [word, htake, bind, Except.bind] at h
    split at h
    · obtain ⟨-, rfl⟩ := Prod.mk.inj (Except.ok.inj h)
      omega
    · cases h

theorem size_le_of_skip {count : Nat} {source rest : Source} (h : source.skip count = .ok rest) :
    rest.size ≤ source.size := by
  fun_induction skip count source with
  | case1 =>
    obtain rfl := Except.ok.inj h
    exact Nat.le_refl _
  | case2 count bytes rest' hle =>
    obtain rfl := Except.ok.inj h
    simp only [size, List.length_drop]
    omega
  | case3 count bytes rest' hlt ih =>
    have := ih h
    simp only [size]
    omega
  | case4 rest' =>
    obtain rfl := Except.ok.inj h
    exact Nat.le_refl _
  | case5 count rest' hne ih => simpa [size] using ih h
  | case6 error rest' =>
    obtain rfl := Except.ok.inj h
    exact Nat.le_refl _
  | case7 => cases h

end Source

namespace Chunk

/-- Bytes of a tag and of the number of bytes that follow. -/
def headerBytes : Nat := 8

theorem size_of_takeHeader? {source rest : Source} {found : Bytes × UInt32}
    (h : takeHeader? source = .ok (some (found, rest))) :
    source.size = rest.size + headerBytes := by
  cases hbyte : source.byte? with
  | error e => simp [takeHeader?, hbyte, bind, Except.bind] at h
  | ok first =>
    cases first with
    | none => simp [takeHeader?, hbyte, bind, Except.bind, pure, Except.pure] at h
    | some first =>
      obtain ⟨b, behind⟩ := first
      cases htake : behind.take 3 with
      | error e => simp [takeHeader?, hbyte, htake, bind, Except.bind] at h
      | ok tag =>
        obtain ⟨tag, behind'⟩ := tag
        cases hword : behind'.word with
        | error e => simp [takeHeader?, hbyte, htake, hword, bind, Except.bind] at h
        | ok following =>
          obtain ⟨following, behind''⟩ := following
          simp only [takeHeader?, hbyte, htake, hword, bind, Except.bind, pure, Except.pure,
            Except.ok.injEq, Option.some.injEq, Prod.mk.injEq] at h
          obtain ⟨-, rfl⟩ := h
          rw [Source.size_of_byte? hbyte, Source.size_of_take htake, Source.size_of_word hword,
            headerBytes]
          omega

/-- What is taken for a body is as many bytes as follow the header. -/
theorem size_of_takeBody {decompress : Bytes → Nat → Option Bytes} {following : Nat}
    {source rest : Source} {body : Bytes}
    (h : takeBodyUsing decompress following source = .ok (body, rest)) :
    source.size = following + rest.size := by
  rw [takeBodyUsing] at h
  split at h
  · cases h
  cases hword : source.word with
  | error e => simp [hword, bind, Except.bind] at h
  | ok length =>
    obtain ⟨length, behind⟩ := length
    cases htake : behind.take (following - lengthBytes) with
    | error e => simp [hword, htake, bind, Except.bind] at h
    | ok compressed =>
      obtain ⟨compressed, behind'⟩ := compressed
      simp only [hword, htake, bind, Except.bind] at h
      split at h
      · obtain ⟨-, rfl⟩ := Prod.mk.inj (Except.ok.inj h)
        rw [Source.size_of_word hword, Source.size_of_take htake]
        simp only [lengthBytes] at *
        omega
      · cases h

section Holds

variable {decompress : Bytes → Nat → Option Bytes} {source : Source} {rest : Bytes}
  {fault : Option IoError}

/-- The header of a chunk is read, whatever stands behind it. -/
theorem takeHeader?_of_holds {tag : Bytes} {following : UInt32} (hlength : tag.length = 4)
    (h : source.Holds (tag ++ (Word.toBytes following ++ rest)) fault) :
    ∃ behind, takeHeader? source = .ok (some ((tag, following), behind)) ∧
      behind.Holds rest fault := by
  obtain ⟨first, others, rfl⟩ := List.exists_cons_of_length_pos (l := tag) (by omega)
  have hothers : others.length = 3 := by simpa using hlength
  obtain ⟨source₁, hbyte, h₁⟩ := Source.Holds.byte?_cons h
  obtain ⟨source₂, htake, h₂⟩ := h₁.take
  obtain ⟨behind, hword, hbehind⟩ := h₂.word
  rw [hothers] at htake
  refine ⟨behind, ?_, hbehind⟩
  simp only [takeHeader?, hbyte, htake, hword, bind, Except.bind]
  rfl

/-- A body that has no room for the length of its contents is refused, and not looked at. -/
theorem takeBody_of_lt {following : Nat} (h : following < lengthBytes) (source : Source) :
    takeBodyUsing decompress following source = .error .chunkTooShort := by
  simp only [takeBodyUsing, if_pos h]
  rfl

/-- The block in the body of a chunk is decompressed, and what stands behind it is left. -/
theorem takeBody_of_holds {w : UInt32} {block : Bytes}
    (h : source.Holds (Word.toBytes w ++ block ++ rest) fault) :
    ∃ behind, behind.Holds rest fault ∧
      takeBodyUsing decompress (Word.toBytes w ++ block).length source =
        match decompress block w.toNat with
        | some payload => .ok (payload, behind)
        | none => .error .badCompression := by
  rw [List.append_assoc] at h
  obtain ⟨source₁, hword, h₁⟩ := h.word
  obtain ⟨behind, htake, hbehind⟩ := h₁.take
  have hlength : (Word.toBytes w ++ block).length = lengthBytes + block.length := by
    rw [List.length_append, Word.length_toBytes, lengthBytes]
  refine ⟨behind, hbehind, ?_⟩
  rw [hlength, takeBodyUsing, if_neg (Nat.not_lt.mpr (Nat.le_add_right _ _))]
  simp only [bind, Except.bind, hword, Nat.add_sub_cancel_left, htake]
  cases decompress block w.toNat <;> rfl

/-- **The contents of a body are in the body**: they are the same wherever it stands. -/
theorem takeBody_append {body : Bytes} (h : source.Holds (body ++ rest) fault) :
    ∃ behind, behind.Holds rest fault ∧ takeBodyUsing decompress body.length source =
      (takeBodyUsing decompress body.length (.ofBytes body)).map
        fun found => (found.1, behind) := by
  by_cases hshort : body.length < lengthBytes
  · obtain ⟨behind, -, hbehind⟩ := h.take
    refine ⟨behind, hbehind, ?_⟩
    rw [takeBody_of_lt hshort, takeBody_of_lt hshort]
    rfl
  · obtain ⟨w, block, rfl⟩ := Word.exists_eq_toBytes_append body (Nat.le_of_not_lt hshort)
    obtain ⟨behind, hbehind, hbody⟩ := takeBody_of_holds h
    have hself := Source.holds_ofBytes (Word.toBytes w ++ block)
    rw [← List.append_nil (Word.toBytes w ++ block)] at hself
    obtain ⟨nothing, -, hown⟩ := takeBody_of_holds hself
    rw [List.append_nil] at hown
    refine ⟨behind, hbehind, ?_⟩
    rw [hbody, hown]
    cases decompress block w.toNat <;> rfl

end Holds

end Chunk

namespace Archive

/-! ### Pieces -/

/-- **A chunk as it stands in a file**: a tag, and as many bytes as it says, whatever they are. -/
structure Piece where
  /-- The tag. -/
  tag : Bytes
  /-- The bytes that follow. -/
  body : Bytes
  length_tag : tag.length = 4 := by rfl
  length_body : body.length < Chunk.wordCount := by decide

namespace Piece

/-- The bytes of a piece. -/
def bytes (p : Piece) : Bytes :=
  p.tag ++ (Word.toBytes (UInt32.ofNat p.body.length) ++ p.body)

/-- Whether a segment is expected in the piece. -/
def isSegment (p : Piece) : Bool := p.tag = segmentTag

/-- What is in a piece where a segment is expected, if it has this place among all of them. -/
def segment (decompress : Bytes → Nat → Option Bytes) (p : Piece) (place : Nat) :
    Except ArchiveError Segment :=
  match Chunk.takeBodyUsing decompress p.body.length (.ofBytes p.body) with
  | .error e => .error (.io e)
  | .ok (contents, _) => (Segment.decode contents).mapError (.codec place)

/-- What is in the pieces where segments are expected, if the first piece has this place. -/
def segments (decompress : Bytes → Nat → Option Bytes) (place : Nat) (pieces : List Piece) :
    List (Except ArchiveError Segment) :=
  ((pieces.zipIdx place).filter fun (p, _) => p.isSegment).map fun (p, i) => p.segment decompress i

variable {decompress : Bytes → Nat → Option Bytes}

theorem segments_cons (place : Nat) (p : Piece) (pieces : List Piece) :
    segments decompress place (p :: pieces) =
      (if p.isSegment then [p.segment decompress place] else []) ++
        segments decompress (place + 1) pieces := by
  cases h : p.isSegment <;> simp [segments, h]

theorem segments_append (place : Nat) (pieces more : List Piece) :
    segments decompress place (pieces ++ more) =
      segments decompress place pieces ++ segments decompress (place + pieces.length) more := by
  simp [segments, List.zipIdx_append]

theorem length_segments (decompress : Bytes → Nat → Option Bytes) (place : Nat)
    (pieces : List Piece) :
    (segments decompress place pieces).length = (pieces.filter isSegment).length := by
  induction pieces generalizing place with
  | nil => rfl
  | cons p pieces ih => cases h : p.isSegment <;> simp [segments_cons, h, ih]

theorem length_segments_le (decompress : Bytes → Nat → Option Bytes) (place : Nat)
    (pieces : List Piece) :
    (segments decompress place pieces).length ≤ pieces.length := by
  rw [length_segments]
  exact List.length_filter_le _ _

theorem length_bytes (p : Piece) : p.bytes.length = Chunk.headerBytes + p.body.length := by
  simp only [bytes, List.length_append, p.length_tag, Word.length_toBytes, Chunk.headerBytes]
  omega

theorem headerBytes_le_length (p : Piece) : Chunk.headerBytes ≤ p.bytes.length := by
  rw [length_bytes]
  exact Nat.le_add_right _ _

theorem length_bytes_pos (p : Piece) : 0 < p.bytes.length :=
  Nat.lt_of_lt_of_le (by decide) p.headerBytes_le_length

theorem toNat_following (p : Piece) : (UInt32.ofNat p.body.length).toNat = p.body.length :=
  UInt32.toNat_ofNat_of_lt' p.length_body

end Piece

/-! ### Items -/

section ThroughError

variable {ε α : Type} {items last : List (Except ε α)}

theorem throughError_append (items last : List (Except ε α)) :
    throughError (throughError items ++ last) = throughError (items ++ last) := by
  induction items with
  | nil => rfl
  | cons item items ih =>
    cases item with
    | ok a => simp [throughError, ih]
    | error e => rfl

/-- Nothing is kept back before the first error. -/
theorem throughError_ok_append (found : List α) (last : List (Except ε α)) :
    throughError (found.map .ok ++ last) = found.map .ok ++ throughError last := by
  induction found with
  | nil => rfl
  | cons a found ih => simp [throughError, ih]

/-- What comes first is kept as if it were all. -/
theorem take_throughError_append (items last : List (Except ε α)) :
    (throughError (items ++ last)).take items.length = throughError items := by
  induction items with
  | nil => rfl
  | cons item items ih =>
    cases item with
    | ok a => simp [throughError, ih]
    | error e => simp [throughError]

/-- Behind an error nothing is kept. -/
theorem throughError_append_of_error (h : ∃ e, .error e ∈ items) (last : List (Except ε α)) :
    throughError (items ++ last) = throughError items := by
  induction items with
  | nil => simp at h
  | cons item items ih =>
    cases item with
    | ok a => simpa [throughError] using ih (by simpa using h)
    | error e => rfl

/-- Without an error everything is kept. -/
theorem throughError_append_of_ok (h : ¬ ∃ e, .error e ∈ items) (last : List (Except ε α)) :
    throughError (items ++ last) = items ++ throughError last := by
  induction items with
  | nil => rfl
  | cons item items ih =>
    cases item with
    | ok a => simp [throughError, ih (by simpa using h)]
    | error e => exact absurd ⟨e, List.mem_cons_self⟩ h

/-- An error is the last item. -/
theorem eq_length_of_error {e : ε} {i : Nat} (h : (throughError items)[i]? = some (.error e)) :
    i + 1 = (throughError items).length := by
  induction items generalizing i with
  | nil => simp [throughError] at h
  | cons item items ih =>
    cases item with
    | ok a =>
      cases i with
      | zero => simp [throughError] at h
      | succ i => simpa [throughError] using ih (by simpa [throughError] using h)
    | error e' =>
      cases i with
      | zero => rfl
      | succ i => simp [throughError] at h

/-- The first error is kept, if there is one. -/
theorem exists_error_throughError_iff (items : List (Except ε α)) :
    (∃ e, .error e ∈ throughError items) ↔ ∃ e, .error e ∈ items := by
  induction items with
  | nil => rfl
  | cons item items ih =>
    cases item with
    | ok a => simpa [throughError] using ih
    | error e => simp [throughError]

theorem length_throughError_le (items : List (Except ε α)) :
    (throughError items).length ≤ items.length := by
  induction items with
  | nil => exact Nat.le_refl _
  | cons item items ih =>
    cases item with
    | ok a => exact Nat.succ_le_succ ih
    | error e => simp [throughError]

end ThroughError

namespace Reader

/-- What a reader gives when it has been asked so many times before. -/
def nth (r : Reader) : Nat → Option (Except ArchiveError Segment)
  | 0 => r.next.1
  | n + 1 => r.next.2.nth n

/-- What a reader finds that is not done. -/
def found (r : Reader) : Except ArchiveError (Option (Segment × Source × Nat)) :=
  scan r.decompress (r.source.size + 1) r.source r.chunk

theorem next_of_found {r : Reader} (h : r.done = false) : r.next =
    match r.found with
    | .error e => (some (.error e), { r with done := true })
    | .ok none => (none, { r with done := true })
    | .ok (some (segment, source, chunk)) =>
      (some (.ok segment), { source, chunk, decompress := r.decompress }) := by
  cases r
  cases h
  rfl

/-- A reader that is done gives nothing more. -/
theorem nth_of_done {r : Reader} (h : r.done = true) (n : Nat) : r.nth n = none := by
  have hnext : r.next = (none, r) := by rw [next, if_pos h]
  induction n with
  | zero => rw [nth, hnext]
  | succ n ih => rwa [nth, hnext]

/-- **Readers that find the same give the same**, wherever they are. -/
theorem nth_congr {r r' : Reader} (h : r.done = false) (h' : r'.done = false)
    (hsame : r.decompress = r'.decompress) (hfound : r.found = r'.found) (n : Nat) :
    r.nth n = r'.nth n := by
  have hnext := next_of_found h
  have hnext' := next_of_found h'
  rw [← hfound, ← hsame] at hnext'
  cases n with
  | zero =>
    rw [nth, nth, hnext, hnext']
    cases r.found with
    | error e => rfl
    | ok segment => cases segment <;> rfl
  | succ n =>
    rw [nth, nth, hnext, hnext']
    cases r.found with
    | error e => rw [nth_of_done rfl, nth_of_done rfl]
    | ok segment =>
      cases segment with
      | none => rw [nth_of_done rfl, nth_of_done rfl]
      | some segment => rfl

/-- A reader is asked until it gives nothing, or not so often. -/
theorem itemsWithin_eq {items : List (Except ArchiveError Segment)} {r : Reader} {fuel : Nat}
    (h : ∀ n, r.nth n = items[n]?) (hfuel : items.length ≤ fuel) :
    itemsWithin fuel r = items := by
  induction items generalizing r fuel with
  | nil =>
    cases fuel with
    | zero => rfl
    | succ fuel =>
      have hfirst : r.next.1 = none := h 0
      rw [itemsWithin]
      split
      · rfl
      · next item after hnext => simp [hnext] at hfirst
  | cons item items ih =>
    obtain ⟨fuel, rfl⟩ := Nat.exists_eq_succ_of_ne_zero (by
      rw [List.length_cons] at hfuel
      omega : fuel ≠ 0)
    have hfirst : r.next.1 = some item := h 0
    have hrest := ih (r := r.next.2) (fun n => h (n + 1)) (Nat.le_of_succ_le_succ hfuel)
    rw [itemsWithin]
    split
    · next hnext => simp [hnext] at hfirst
    · next found after hnext =>
      rw [hnext] at hfirst hrest
      rw [hrest, Option.some.inj hfirst]

/-! ### What is found next -/

section Found

variable {r : Reader} {s : Segment} {source : Source} {place n : Nat} {e : ArchiveError}

/-- Where there is nothing more, nothing is given. -/
theorem nth_of_found_none (h : r.done = false) (hfound : r.found = .ok none) (n : Nat) :
    r.nth n = none := by
  have hnext := next_of_found h
  rw [hfound] at hnext
  cases n with
  | zero => rw [nth, hnext]
  | succ n => rw [nth, hnext, nth_of_done rfl]

/-- An error is the last that is given. -/
theorem nth_of_found_error (h : r.done = false) (hfound : r.found = .error e) (n : Nat) :
    r.nth n = [.error e][n]? := by
  have hnext := next_of_found h
  rw [hfound] at hnext
  cases n with
  | zero => rw [nth, hnext]; rfl
  | succ n => rw [nth, hnext, nth_of_done rfl]; rfl

/-- After a segment it is the turn of a reader behind it. -/
theorem nth_succ_of_found (h : r.done = false) (hfound : r.found = .ok (some (s, source, place)))
    (n : Nat) : r.nth (n + 1) = nth { source, chunk := place, decompress := r.decompress } n := by
  rw [nth, next_of_found h, hfound]

theorem nth_zero_of_found (h : r.done = false) (hfound : r.found = .ok (some (s, source, place))) :
    r.nth 0 = some (.ok s) := by
  rw [nth, next_of_found h, hfound]

end Found

/-- **The bound on the number of chunks is never met** if that many headers are more than the source
has bytes, so it does not matter which one it is. -/
theorem scan_congr {decompress : Bytes → Nat → Option Bytes} {fuel fuel' : Nat} {source : Source}
    (h : source.size < Chunk.headerBytes * fuel) (h' : source.size < Chunk.headerBytes * fuel')
    (place : Nat) : scan decompress fuel source place = scan decompress fuel' source place := by
  -- each chunk takes its header off the source and one unit off both bounds
  rw [Chunk.headerBytes] at h h'
  induction fuel generalizing fuel' source place with
  | zero => omega
  | succ fuel ih =>
    obtain ⟨fuel', rfl⟩ := Nat.exists_eq_succ_of_ne_zero (by omega : fuel' ≠ 0)
    rw [scan, scan]
    cases hheader : Chunk.takeHeader? source with
    | error e => rfl
    | ok found =>
      cases found with
      | none => rfl
      | some found =>
        obtain ⟨⟨tag, following⟩, rest⟩ := found
        have hsize := Chunk.size_of_takeHeader? hheader
        dsimp only
        split
        · cases hskip : rest.skip following.toNat with
          | error e => rfl
          | ok behind =>
            have hle := Source.size_le_of_skip hskip
            rw [Chunk.headerBytes] at hsize
            exact ih (by omega) (by omega) _
        · rfl

section Pieces

variable {decompress : Bytes → Nat → Option Bytes} {p : Piece} {pieces : List Piece}
  {source : Source} {rest tail : Bytes} {fault : Option IoError} {place : Nat}
  {last : List (Except ArchiveError Segment)}

/-- **A piece of another tag is passed over** behind its header. -/
theorem found_of_header_other (hp : p.isSegment = false)
    (h : source.Holds (p.tag ++ (Word.toBytes (UInt32.ofNat p.body.length) ++ rest)) fault)
    (place : Nat) : ∃ behind : Source, behind.Holds rest fault ∧
      found { source, chunk := place, decompress } =
        match behind.skip p.body.length with
        | .error e => .error (.io e)
        | .ok after => found { source := after, chunk := place + 1, decompress } := by
  have htag : p.tag ≠ segmentTag := by simpa [Piece.isSegment] using hp
  obtain ⟨behind, hheader, hbehind⟩ := Chunk.takeHeader?_of_holds p.length_tag h
  have hsize := Chunk.size_of_takeHeader? hheader
  refine ⟨behind, hbehind, ?_⟩
  rw [found, scan]
  simp only [hheader]
  rw [if_pos htag, p.toNat_following]
  cases hskip : behind.skip p.body.length with
  | error e => rfl
  | ok after =>
    have hle := Source.size_le_of_skip hskip
    rw [Chunk.headerBytes] at hsize
    dsimp only [found]
    exact scan_congr (by rw [Chunk.headerBytes]; omega) (by rw [Chunk.headerBytes]; omega) _

/-- **A piece where a segment is expected is read** behind its header. -/
theorem found_of_header_segment (hp : p.isSegment = true)
    (h : source.Holds (p.tag ++ (Word.toBytes (UInt32.ofNat p.body.length) ++ rest)) fault)
    (place : Nat) : ∃ behind : Source, behind.Holds rest fault ∧
      found { source, chunk := place, decompress } =
        match Chunk.takeBodyUsing decompress p.body.length behind with
        | .error e => .error (.io e)
        | .ok (contents, after) =>
          ((Segment.decode contents).mapError (.codec place)).map fun s =>
            some (s, after, place + 1) := by
  have htag : p.tag = segmentTag := by simpa [Piece.isSegment] using hp
  obtain ⟨behind, hheader, hbehind⟩ := Chunk.takeHeader?_of_holds p.length_tag h
  refine ⟨behind, hbehind, ?_⟩
  rw [found, scan]
  simp only [hheader]
  rw [if_neg (by simpa using htag), p.toNat_following]
  cases Chunk.takeBodyUsing decompress p.body.length behind with
  | error e => rfl
  | ok body =>
    dsimp only
    cases Segment.decode body.1 <;> rfl

/-- A reader behind a piece of another tag finds what one in front of it finds. -/
theorem found_other (hp : p.isSegment = false) (h : source.Holds (p.bytes ++ rest) fault)
    (place : Nat) : ∃ behind : Source, behind.Holds rest fault ∧
      found { source, chunk := place, decompress } =
        found { source := behind, chunk := place + 1, decompress } := by
  rw [Piece.bytes, List.append_assoc, List.append_assoc] at h
  obtain ⟨body, hbody, hfound⟩ := found_of_header_other hp h place
  obtain ⟨behind, hskip, hbehind⟩ := hbody.skip
  rw [hskip] at hfound
  exact ⟨behind, hbehind, hfound⟩

/-- Where a segment is expected, what is in the piece is given, and the next piece is behind it. -/
theorem found_segment (hp : p.isSegment = true) (h : source.Holds (p.bytes ++ rest) fault)
    (place : Nat) : ∃ behind, behind.Holds rest fault ∧
      found { source, chunk := place, decompress } =
        (p.segment decompress place).map fun s => some (s, behind, place + 1) := by
  rw [Piece.bytes, List.append_assoc, List.append_assoc] at h
  obtain ⟨body, hbody, hfound⟩ := found_of_header_segment hp h place
  obtain ⟨behind, hbehind, htake⟩ := Chunk.takeBody_append hbody
  refine ⟨behind, hbehind, ?_⟩
  rw [hfound, htake, Piece.segment]
  cases Chunk.takeBodyUsing decompress p.body.length (.ofBytes p.body) <;> rfl

/-- Where nothing is left, nothing is found, unless there is a fault. -/
theorem found_nil (h : source.Holds [] fault) (place : Nat) :
    found { source, chunk := place, decompress } =
      fault.elim (.ok none) fun e => .error (.io e) := by
  have hheader : Chunk.takeHeader? source = fault.elim (.ok none) .error := by
    rw [Chunk.takeHeader?, h.byte?_nil]
    cases fault <;> rfl
  rw [found, scan, hheader]
  cases fault <;> rfl

theorem nth_nil (h : source.Holds [] none) (place n : Nat) :
    nth { source, chunk := place, decompress } n = (throughError [])[n]? :=
  nth_of_found_none rfl (found_nil h place) n

/-- **What a reader gives** in front of pieces: what is in those where segments are expected, up to
the first error; and then what it gives in front of that which stands behind them. -/
theorem nth_pieces (pieces : List Piece) (place : Nat)
    (hlast : ∀ source : Source, source.Holds tail fault → ∀ n,
      nth { source, chunk := place + pieces.length, decompress } n = (throughError last)[n]?)
    (h : source.Holds (pieces.flatMap Piece.bytes ++ tail) fault) (n : Nat) :
    nth { source, chunk := place, decompress } n =
      (throughError (Piece.segments decompress place pieces ++ last))[n]? := by
  induction pieces generalizing source place n with
  | nil => exact hlast source h n
  | cons p pieces ih =>
    have hrest {behind : Source} (hbehind : behind.Holds (pieces.flatMap Piece.bytes ++ tail) fault)
        (n : Nat) : nth { source := behind, chunk := place + 1, decompress } n =
          (throughError (Piece.segments decompress (place + 1) pieces ++ last))[n]? := by
      refine ih (place + 1) (fun source hsource n => ?_) hbehind n
      rw [← hlast source hsource n, List.length_cons, Nat.add_assoc, Nat.add_comm 1]
    rw [List.flatMap_cons, List.append_assoc] at h
    rw [Piece.segments_cons]
    cases hp : p.isSegment with
    | false =>
      obtain ⟨behind, hbehind, hfound⟩ := found_other hp h place
      rw [nth_congr rfl rfl (Eq.refl decompress) hfound]
      exact hrest hbehind n
    | true =>
      -- a segment leaves a reader in front of the other pieces, and an error one that is done
      obtain ⟨behind, hbehind, hfound⟩ := found_segment hp h place
      cases hs : p.segment decompress place with
      | error e =>
        rw [hs] at hfound
        rw [nth_of_found_error rfl hfound]
        rfl
      | ok s =>
        rw [hs] at hfound
        cases n with
        | zero => rw [nth_zero_of_found rfl hfound]; rfl
        | succ n =>
          rw [nth_succ_of_found rfl hfound]
          exact hrest hbehind n

end Pieces

end Reader

/-! ### Chunks that were written -/

section Entries

variable {compress : Bytes → Bytes} {decompress : Bytes → Nat → Option Bytes} {e : Entry}
  {entries : List Entry} {place : Nat}

/-- The piece that the chunk of an entry is, if it fits. -/
def Entry.piece (compress : Bytes → Bytes) (e : Entry) (h : Chunk.Fits compress e.payload) :
    Piece where
  tag := e.tag
  body := Word.toBytes (UInt32.ofNat e.payload.length) ++ compress e.payload
  length_tag := e.length_tag
  length_body := by
    rw [List.length_append, Word.length_toBytes]
    exact h.following_lt

theorem Entry.bytes_piece (h : Chunk.Fits compress e.payload) :
    (e.piece compress h).bytes = e.bytes compress := by
  simp [Piece.bytes, piece, Entry.bytes, Chunk.bytes, Chunk.lengthBytes]

/-- What is in the piece of an entry is what was put there. -/
theorem Entry.segment_piece (hlz : Compresses compress decompress)
    (h : Chunk.Fits compress e.payload) (place : Nat) :
    (e.piece compress h).segment decompress place =
      (Segment.decode e.payload).mapError (.codec place) := by
  have htake := Chunk.takeBody_ofBytes (hlz e.payload) h []
  rw [UInt32.toNat_ofNat_of_lt' h.following_lt, List.append_nil] at htake
  have hlength : (e.piece compress h).body.length =
      Chunk.lengthBytes + (compress e.payload).length := by
    simp [piece, Chunk.lengthBytes]
  rw [Piece.segment, hlength, piece]
  dsimp only
  rw [htake]

/-- **Chunks that were written are pieces**, which are to be read as the archive is. -/
theorem exists_pieces (hlz : Compresses compress decompress)
    (h : ∀ e ∈ entries, Chunk.Fits compress e.payload) :
    ∃ pieces : List Piece,
      pieces.flatMap Piece.bytes = entries.flatMap (Entry.bytes compress) ∧
      ∀ place, itemsFrom place entries = throughError (Piece.segments decompress place pieces) := by
  induction entries with
  | nil => exact ⟨[], rfl, fun _ => rfl⟩
  | cons e entries ih =>
    obtain ⟨he, hentries⟩ := List.forall_mem_cons.mp h
    obtain ⟨pieces, hbytes, hitems⟩ := ih hentries
    refine ⟨e.piece compress he :: pieces, ?_, fun place => ?_⟩
    · rw [List.flatMap_cons, List.flatMap_cons, Entry.bytes_piece, hbytes]
    · have hkind : (e.piece compress he).isSegment = e.isSegment := rfl
      rw [Piece.segments_cons, hkind, Entry.segment_piece hlz]
      cases hsegment : e.isSegment with
      | false =>
        rw [itemsFrom_cons_other hsegment, hitems]
        rfl
      | true =>
        cases hd : Segment.decode e.payload with
        | ok s =>
          rw [itemsFrom_cons_ok hsegment hd, hitems]
          rfl
        | error error =>
          rw [itemsFrom_cons_error hsegment hd]
          rfl

/-- A reader in front of these chunks, of which the first has this place. -/
def Reader.before (compress : Bytes → Bytes) (decompress : Bytes → Nat → Option Bytes)
    (entries : List Entry) (place : Nat) : Reader :=
  { source := .ofBytes (entries.flatMap (Entry.bytes compress)), chunk := place, decompress }

/-- **What a reader gives is what the archive is to be read as**, and nothing after it. -/
theorem Reader.nth_before (hlz : Compresses compress decompress)
    (h : ∀ e ∈ entries, Chunk.Fits compress e.payload) (place n : Nat) :
    (before compress decompress entries place).nth n = (itemsFrom place entries)[n]? := by
  obtain ⟨pieces, hbytes, hitems⟩ := exists_pieces hlz h
  have hsource := Source.holds_ofBytes (pieces.flatMap Piece.bytes ++ [])
  have hnil (source : Source) (h : source.Holds [] none) (n : Nat) :
      nth { source, chunk := place + pieces.length, decompress } n = (throughError [])[n]? :=
    nth_nil h _ n
  have hnth := nth_pieces pieces place hnil hsource n
  rw [List.append_nil, List.append_nil, hbytes, ← hitems] at hnth
  exact hnth

end Entries

/-! ### The whole archive -/

/-- Where everything has so many bytes at least, all have so many times their number. -/
theorem mul_length_le_length_flatMap {α : Type} {f : α → Bytes} {count : Nat}
    (h : ∀ a, count ≤ (f a).length) (things : List α) :
    count * things.length ≤ (things.flatMap f).length := by
  induction things with
  | nil => exact Nat.le_refl _
  | cons a things ih =>
    have ha := h a
    rw [List.flatMap_cons, List.length_append, List.length_cons, Nat.mul_succ]
    omega

/-- The header of an archive is read, and what stands behind it is next. -/
theorem start_ofBytes (compress : Bytes → Bytes) (decompress : Bytes → Nat → Option Bytes)
    (entries : List Entry) :
    Reader.startUsing decompress (.ofBytes (header ++ entries.flatMap (Entry.bytes compress))) =
      .ok (Reader.before compress decompress entries 0) := by
  have hmagic := Source.take_ofBytes magic
    (Word.toBytes version ++ entries.flatMap (Entry.bytes compress))
  rw [Reader.startUsing, header, List.append_assoc, hmagic]
  dsimp only
  rw [if_neg (by simp), Source.word_ofBytes]
  dsimp only
  rw [if_neg (by simp)]
  rfl

section Whole

variable {decompress : Bytes → Nat → Option Bytes} {source : Source} {bytes tail : Bytes}
  {fault : Option IoError} {last : List (Except ArchiveError Segment)}

/-- The header of an archive is read off any source, and what stands behind it is next. -/
theorem start_of_holds (h : source.Holds (header ++ bytes) fault) :
    ∃ behind, Reader.startUsing decompress source = .ok { source := behind, decompress } ∧
      behind.Holds bytes fault := by
  rw [header, List.append_assoc] at h
  obtain ⟨source₁, hmagic, h₁⟩ := h.take
  obtain ⟨behind, hversion, hbehind⟩ := h₁.word
  refine ⟨behind, ?_, hbehind⟩
  rw [Reader.startUsing, hmagic]
  dsimp only
  rw [if_neg (by simp), hversion]
  dsimp only
  rw [if_neg (by simp)]

/-- **What is given of an archive**: its reader gives this, one after the other and then nothing,
and it is all its items. -/
def Reads (decompress : Bytes → Nat → Option Bytes) (source : Source)
    (given : List (Except ArchiveError Segment)) : Prop :=
  ∃ r, Reader.startUsing decompress source = .ok r ∧ (∀ n, r.nth n = given[n]?) ∧
    itemsUsing decompress source = .ok given

theorem Reads.items_eq {given : List (Except ArchiveError Segment)}
    (h : Reads decompress source given) : itemsUsing decompress source = .ok given := by
  obtain ⟨-, -, -, hitems⟩ := h
  exact hitems

theorem reads_of_start {r : Reader} {given : List (Except ArchiveError Segment)}
    (hstart : Reader.startUsing decompress source = .ok r) (h : ∀ n, r.nth n = given[n]?)
    (hlength : given.length ≤ r.source.size + 1) : Reads decompress source given := by
  refine ⟨r, hstart, h, ?_⟩
  rw [itemsUsing, hstart, Except.map, Reader.items, Reader.itemsWithin_eq h hlength]

/-- **An archive of pieces** is given as what is in them, and of what stands behind them. -/
theorem read_pieces (pieces : List Piece)
    (hlast : ∀ source : Source, source.Holds tail fault → ∀ n,
      Reader.nth { source, chunk := 0 + pieces.length, decompress } n = (throughError last)[n]?)
    (hlength : last.length ≤ tail.length + 1)
    (h : source.Holds (header ++ (pieces.flatMap Piece.bytes ++ tail)) fault) :
    Reads decompress source (throughError (Piece.segments decompress 0 pieces ++ last)) := by
  obtain ⟨behind, hstart, hbehind⟩ := start_of_holds h
  have hnth := Reader.nth_pieces pieces 0 hlast hbehind
  refine reads_of_start hstart hnth ?_
  have hpieces := mul_length_le_length_flatMap Piece.length_bytes_pos pieces
  have hsegments := Piece.length_segments_le decompress 0 pieces
  have hsize := behind.length_contents_le
  rw [hbehind.contents_eq, List.length_append] at hsize
  refine Nat.le_trans (length_throughError_le _) ?_
  rw [List.length_append]
  dsimp only
  omega

end Whole

/-- An archive that ends behind a piece is given as what is in its pieces. -/
theorem read_whole (decompress : Bytes → Nat → Option Bytes) (pieces : List Piece) :
    Reads decompress (.ofBytes (header ++ pieces.flatMap Piece.bytes))
      (throughError (Piece.segments decompress 0 pieces)) := by
  have hsource := Source.holds_ofBytes (header ++ (pieces.flatMap Piece.bytes ++ []))
  have h : Reads decompress _ _ :=
    read_pieces pieces (fun _ hnil => Reader.nth_nil hnil _) (Nat.zero_le _) hsource
  rwa [List.append_nil, List.append_nil] at h

/-- The items of an archive that was written are what it is to be read as. -/
theorem items_ofBytes {compress : Bytes → Bytes} {decompress : Bytes → Nat → Option Bytes}
    (hlz : Compresses compress decompress) {entries : List Entry}
    (h : ∀ e ∈ entries, Chunk.Fits compress e.payload) :
    itemsUsing decompress (.ofBytes (header ++ entries.flatMap (Entry.bytes compress))) =
      .ok (itemsFrom 0 entries) := by
  obtain ⟨pieces, hbytes, hitems⟩ := exists_pieces hlz h
  rw [← hbytes, hitems]
  exact (read_whole decompress pieces).items_eq

end Archive

end Deposition
