import Deposition.Bytes.Lz4
import Deposition.Bytes.Source

/-!
# Chunks

An archive is cut into chunks, so that a reader can pass over what it does not know. A chunk is

* a tag of four bytes;
* the number of bytes that follow, as a word;
* the length of the contents before compression, as a word;
* the contents, as one LZ4 block.

Both lengths are words, and contents that do not fit them are refused before anything is written.
The number of bytes counts the second length too, which is why it is never below four.
-/

namespace Deposition

namespace Chunk

/-- The number of values of a word. -/
def wordCount : Nat := UInt32.size

/-- Bytes of the length field in front of the contents. -/
def lengthBytes : Nat := 4

/-- The bytes of a chunk, given the compressed form of its contents. The number of bytes that follow
stops at the greatest word. -/
def encodeWith (compressed : Bytes) (tag payload : Bytes) : Except IoError Bytes :=
  if wordCount ≤ payload.length ∨ wordCount ≤ compressed.length then .error .chunkTooLarge
  else
    let following := min (lengthBytes + compressed.length) (wordCount - 1)
    .ok (tag ++ Word.toBytes (UInt32.ofNat following) ++
      Word.toBytes (UInt32.ofNat payload.length) ++ compressed)

/-- The bytes of a chunk, for a choice of how to compress. -/
def encodeUsing (compress : Bytes → Bytes) (tag payload : Bytes) : Except IoError Bytes :=
  encodeWith (compress payload) tag payload

/-- The bytes of a chunk. -/
def encode (tag payload : Bytes) : Except IoError Bytes := encodeUsing Lz4.compress tag payload

/-- The tag of the next chunk and the number of bytes that follow, or nothing at the end of the
input. Once the first byte is there, the rest has to be. -/
def takeHeader? (source : Source) : Except IoError (Option ((Bytes × UInt32) × Source)) := do
  match ← source.byte? with
  | none => return none
  | some (first, rest) =>
    let (tag, rest) ← rest.take 3
    let (following, rest) ← rest.word
    return some ((first :: tag, following), rest)

/-- The contents of a chunk of which `following` bytes are left, for a choice of how to decompress a
block into a room of so many bytes. -/
def takeBodyUsing (decompress : Bytes → Nat → Option Bytes) (following : Nat) (source : Source) :
    Except IoError (Bytes × Source) := do
  if following < lengthBytes then throw .chunkTooShort
  let (length, rest) ← source.word
  let (compressed, rest) ← rest.take (following - lengthBytes)
  match decompress compressed length.toNat with
  | some body => return (body, rest)
  | none => throw .badCompression

/-- The contents of a chunk of which `following` bytes are left. -/
def takeBody (following : Nat) (source : Source) : Except IoError (Bytes × Source) :=
  takeBodyUsing Lz4.decompress following source

end Chunk

end Deposition
