import Deposition.Archive.Basic

/-!
# Reading archives

A reader gives the segments of an archive one after the other. It ends in one of two ways: at the
end of the file, or with the first error, after which it gives nothing more.

Passing over a chunk that holds no segment consumes at least the eight bytes of its header, so a
reader can look at no more chunks than the archive has bytes. That number is the bound under
`Deposition.Archive.Reader.next`.
-/

namespace Deposition

namespace Archive

/-- A reader in the middle of an archive. -/
structure Reader where
  /-- What is left to read. -/
  source : Source
  /-- How many chunks have been passed, of any tag. -/
  chunk : Nat := 0
  /-- Whether the end or an error has been met. -/
  done : Bool := false
  /-- How it decompresses. -/
  decompress : Bytes → Nat → Option Bytes := Lz4.decompress

namespace Reader

/-- A reader at the first chunk of an archive, for a choice of how to decompress. -/
def startUsing (decompress : Bytes → Nat → Option Bytes) (source : Source) :
    Except ArchiveError Reader :=
  match source.take magic.length with
  | .error e => .error (.io e)
  | .ok (found, rest) =>
    if found ≠ magic then .error .badMagic
    else
      match rest.word with
      | .error e => .error (.io e)
      | .ok (found, rest) =>
        if found ≠ version then .error (.unsupportedVersion found)
        else .ok { source := rest, decompress }

/-- A reader at the first chunk of an archive. -/
def start (source : Source) : Except ArchiveError Reader := startUsing Lz4.decompress source

/-- The next segment, with the source and the number of chunks behind it; nothing at the end of the
archive. At most `fuel` chunks are looked at. -/
def scan (decompress : Bytes → Nat → Option Bytes) :
    (fuel : Nat) → (source : Source) → (chunk : Nat) →
      Except ArchiveError (Option (Segment × Source × Nat))
  | 0, _, _ => .ok none
  | fuel + 1, source, chunk =>
    match Chunk.takeHeader? source with
    | .error e => .error (.io e)
    | .ok none => .ok none
    | .ok (some ((tag, following), rest)) =>
      if tag ≠ segmentTag then
        match rest.skip following.toNat with
        | .error e => .error (.io e)
        | .ok rest => scan decompress fuel rest (chunk + 1)
      else
        match Chunk.takeBodyUsing decompress following.toNat rest with
        | .error e => .error (.io e)
        | .ok (body, rest) =>
          match Segment.decode body with
          | .error e => .error (.codec chunk e)
          | .ok segment => .ok (some (segment, rest, chunk + 1))

/-- The next item of an archive, a segment or the error that ends it. -/
def next (r : Reader) : Option (Except ArchiveError Segment) × Reader :=
  if r.done then (none, r)
  else
    match scan r.decompress (r.source.size + 1) r.source r.chunk with
    | .error e => (some (.error e), { r with done := true })
    | .ok none => (none, { r with done := true })
    | .ok (some (segment, source, chunk)) => (some (.ok segment), { r with source, chunk })

/-- Every item, of which at most `fuel` are read. -/
def itemsWithin : (fuel : Nat) → Reader → List (Except ArchiveError Segment)
  | 0, _ => []
  | fuel + 1, r =>
    match r.next with
    | (none, _) => []
    | (some item, r) => item :: itemsWithin fuel r

/-- Every item of an archive, in order. There are fewer segments than bytes, and one error
at most. -/
def items (r : Reader) : List (Except ArchiveError Segment) := itemsWithin (r.source.size + 1) r

end Reader

/-- Every item of an archive, in order, for a choice of how to decompress. -/
def itemsUsing (decompress : Bytes → Nat → Option Bytes) (source : Source) :
    Except ArchiveError (List (Except ArchiveError Segment)) :=
  (Reader.startUsing decompress source).map Reader.items

/-- Every item of an archive, in order. -/
def items (source : Source) : Except ArchiveError (List (Except ArchiveError Segment)) :=
  itemsUsing Lz4.decompress source

/-- The trajectory that items make, one segment after the other. -/
def assemble {σ : Type} (t : Trajectory σ) :
    List (Except ArchiveError Segment) → Except ArchiveError (Trajectory σ)
  | [] => .ok t
  | .error e :: _ => .error e
  | .ok segment :: rest =>
    match t.append segment with
    | .error e => .error (.trajectory e)
    | .ok (t, _) => assemble t rest

/-- The trajectory of an archive, for a choice of how to decompress. -/
def loadUsing {σ : Type} (decompress : Bytes → Nat → Option Bytes) (source : Source) :
    Except ArchiveError (Trajectory σ) := do
  assemble {} (← itemsUsing decompress source)

/-- The trajectory of an archive. -/
def load {σ : Type} (source : Source) : Except ArchiveError (Trajectory σ) :=
  loadUsing Lz4.decompress source

end Archive

end Deposition
