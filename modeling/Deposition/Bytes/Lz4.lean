import Deposition.Bytes.LittleEndian

/-!
# LZ4 blocks

An archive compresses each of its chunks as one raw LZ4 block. A block is a run of *sequences*:
some literal bytes, and then a back-reference that repeats bytes already written. The last
sequence of a block has literals only, and this is what ends the block – a block that stops
right after a back-reference has lost its end.

Reading is split along that description. `Deposition.Lz4.Sequence.take?` takes one sequence off
the front, `Deposition.Lz4.sequences?` cuts a block into its sequences, and
`Deposition.Lz4.decompress` plays them against an output of bounded size: filling less than the
room is fine, overrunning it is not.

Writing is free to choose any block that reads back, and `Deposition.Lz4.compress` chooses the
plainest one, a single sequence that holds everything as literals.
`Deposition.Lz4.decompress_compress` is the fact an archive rests on.
-/

namespace Deposition

namespace Lz4

/-- The shortest back-reference; the lengths in a block count from here. -/
def minMatch : Nat := 4

/-- One step of a block: literal bytes to write, then how far back to go and how many bytes to
repeat from there. The last sequence of a block repeats nothing. -/
structure Sequence where
  /-- Bytes written as they are. -/
  literals : Bytes
  /-- Distance back from the end of the output, and number of bytes repeated. -/
  repeats : Option (Nat × Nat)

/-- The rest of a length that did not fit its four bits: bytes of 255, and the first other byte
closes it. -/
def takeExcess? : Bytes → Option (Nat × Bytes)
  | [] => none
  | b :: rest =>
    if b = 255 then (takeExcess? rest).map fun (n, rest) => (n + 255, rest)
    else some (b.toNat, rest)

/-- A length of which four bits are given; 15 says that more follows. -/
def takeLength? (nibble : Nat) (bytes : Bytes) : Option (Nat × Bytes) :=
  if nibble = 15 then (takeExcess? bytes).map fun (n, rest) => (n + 15, rest)
  else some (nibble, bytes)

/-- The first sequence of a block. A sequence whose literals end the input is the last one. -/
def Sequence.take? : Bytes → Option (Sequence × Bytes)
  | [] => none
  | token :: bytes => do
    let (count, bytes) ← takeLength? (token.toNat / 16) bytes
    if bytes.length < count then none
    else
      let literals := bytes.take count
      match bytes.drop count with
      | [] => some (⟨literals, none⟩, [])
      | [_] => none
      | low :: high :: bytes => do
        let (extra, bytes) ← takeLength? (token.toNat % 16) bytes
        some (⟨literals, some (low.toNat + 256 * high.toNat, minMatch + extra)⟩, bytes)

/-- The sequences of a block, of which at most `fuel` are read; each takes at least a byte, so a
block has no more sequences than bytes. -/
def sequencesWithin? : Nat → Bytes → Option (List Sequence)
  | 0, _ => none
  | fuel + 1, bytes => do
    let (first, rest) ← Sequence.take? bytes
    match first.repeats with
    | none => some [first]
    | some _ => (sequencesWithin? fuel rest).map (first :: ·)

/-- The sequences of a block, unless it is not one. -/
def sequences? (block : Bytes) : Option (List Sequence) :=
  sequencesWithin? block.length block

/-- Writes `count` bytes, each a copy of the one `distance` bytes before it. -/
def repeatBack (distance : Nat) : Nat → Array UInt8 → Array UInt8
  | 0, output => output
  | count + 1, output =>
    repeatBack distance count (output.push (output.getD (output.size - distance) 0))

/-- Plays one sequence. It fails when the output would not fit `room`, or when the distance does
not lead to a byte already written. -/
def Sequence.play? (room : Nat) (output : Array UInt8) (s : Sequence) : Option (Array UInt8) :=
  if room < output.size + s.literals.length then none
  else
    let output := output ++ s.literals
    match s.repeats with
    | none => some output
    | some (distance, count) =>
      if distance = 0 ∨ output.size < distance ∨ room < output.size + count then none
      else some (repeatBack distance count output)

/-- What a block holds, if it is a block and its contents fit `room`. -/
def decompress (block : Bytes) (room : Nat) : Option Bytes := do
  let steps ← sequences? block
  let output ← steps.foldlM (Sequence.play? room) #[]
  return output.toList

/-- The bytes after a length of which 15 is already said. -/
def excessBytes (n : Nat) : Bytes :=
  List.replicate (n / 255) 255 ++ [UInt8.ofNat (n % 255)]

/-- A block for these bytes: one sequence of literals. -/
def compress (bytes : Bytes) : Bytes :=
  if bytes.length < 15 then UInt8.ofNat (16 * bytes.length) :: bytes
  else 0xf0 :: (excessBytes (bytes.length - 15) ++ bytes)

/-! ### What is compressed reads back -/

theorem takeExcess?_replicate (k : Nat) (b : UInt8) (hb : b ≠ 255) (rest : Bytes) :
    takeExcess? (List.replicate k 255 ++ b :: rest) = some (255 * k + b.toNat, rest) := by
  induction k with
  | zero => simp [takeExcess?, hb]
  | succ k ih =>
    simp only [List.replicate_succ, List.cons_append, takeExcess?, if_pos, ih, Option.map_some]
    congr 2
    omega

theorem takeExcess?_excessBytes (n : Nat) (rest : Bytes) :
    takeExcess? (excessBytes n ++ rest) = some (n, rest) := by
  have hlt : n % 255 < 255 := Nat.mod_lt _ (by omega)
  have hval : (UInt8.ofNat (n % 255)).toNat = n % 255 := by
    rw [UInt8.toNat_ofNat']
    omega
  have hne : UInt8.ofNat (n % 255) ≠ 255 := by
    intro h
    rw [h] at hval
    have : (255 : UInt8).toNat = 255 := rfl
    omega
  rw [excessBytes, List.append_assoc, List.singleton_append, takeExcess?_replicate _ _ hne, hval]
  congr 2
  omega

/-- A token whose length says that everything left is literal makes the last sequence. -/
theorem take?_cons_of_takeLength? {token : UInt8} {bytes literals : Bytes}
    (h : takeLength? (token.toNat / 16) bytes = some (literals.length, literals)) :
    Sequence.take? (token :: bytes) = some (⟨literals, none⟩, []) := by
  simp [Sequence.take?, h]

/-- A block made of literals is one sequence. -/
theorem take?_compress (bytes : Bytes) :
    Sequence.take? (compress bytes) = some (⟨bytes, none⟩, []) := by
  unfold compress
  split
  · next h =>
    apply take?_cons_of_takeLength?
    have hdiv : (UInt8.ofNat (16 * bytes.length)).toNat / 16 = bytes.length := by
      rw [UInt8.toNat_ofNat']
      omega
    rw [hdiv, takeLength?, if_neg (by omega)]
  · next h =>
    apply take?_cons_of_takeLength?
    have hdiv : (0xf0 : UInt8).toNat / 16 = 15 := rfl
    have hlen : bytes.length - 15 + 15 = bytes.length := by omega
    rw [hdiv, takeLength?, if_pos rfl, takeExcess?_excessBytes]
    simp only [Option.map_some, hlen]

/-- What is compressed reads back whole, whatever room is left beside it. -/
theorem decompress_compress {bytes : Bytes} {room : Nat} (h : bytes.length ≤ room) :
    decompress (compress bytes) room = some bytes := by
  have hpos : ∃ k, (compress bytes).length = k + 1 := by
    unfold compress
    split <;> exact ⟨_, rfl⟩
  obtain ⟨k, hk⟩ := hpos
  simp [decompress, sequences?, hk, sequencesWithin?, take?_compress, Sequence.play?,
    Nat.not_lt.2 h]

end Lz4

end Deposition
