import Deposition.Bytes.Lz4

/-!
# The room that a block is given

A block is decompressed into a room of so many bytes, and the room is a bound and nothing else: what
a block holds (`Deposition.Lz4.contents?`) is found by playing its sequences without any bound, and
decompressing gives it if it fits and nothing if it does not
(`Deposition.Lz4.decompress_eq_filter`). A room that is too small is therefore always noticed, and a
room that is too large never is.

The reason is that an output only grows. The bound is looked at before each sequence is played, but
what comes last is the longest, so that looking at it once, at the end, comes to the same
(`Deposition.Lz4.foldlM_play?`).
-/

namespace Deposition

namespace Lz4

variable {room : Nat} {output output' : Array UInt8} {s : Sequence} {steps : List Sequence}

@[simp] theorem size_repeatBack (distance count : Nat) (output : Array UInt8) :
    (repeatBack distance count output).size = output.size + count := by
  induction count generalizing output with
  | zero => rfl
  | succ count ih =>
    rw [repeatBack, ih, Array.size_push]
    omega

@[simp] theorem size_append_literals (output : Array UInt8) (literals : Bytes) :
    (output ++ literals).size = output.size + literals.length := by
  rw [← Array.length_toList, Array.toList_appendList, List.length_append, Array.length_toList]

/-! ### One sequence -/

/-- What a sequence makes of an output, if its distance leads to a byte already written. -/
def Sequence.extend? (output : Array UInt8) (s : Sequence) : Option (Array UInt8) :=
  match s.repeats with
  | none => some (output ++ s.literals)
  | some (distance, count) =>
    if distance = 0 ∨ (output ++ s.literals).size < distance then none
    else some (repeatBack distance count (output ++ s.literals))

/-- An output only grows. -/
theorem size_le_of_extend? (h : s.extend? output = some output') : output.size ≤ output'.size := by
  rw [Sequence.extend?] at h
  split at h
  · obtain rfl := Option.some.inj h
    simp
  · split at h
    · cases h
    · obtain rfl := Option.some.inj h
      simp only [size_repeatBack, size_append_literals]
      omega

/-- **A sequence is played if what it makes of the output fits.** -/
theorem play?_eq (room : Nat) (output : Array UInt8) (s : Sequence) :
    s.play? room output = (s.extend? output).filter fun o => o.size ≤ room := by
  rw [Sequence.play?, Sequence.extend?]
  cases s.repeats with
  | none => grind [size_append_literals]
  | some back => grind [size_append_literals, size_repeatBack]

/-! ### All of them -/

theorem size_le_of_foldlM_extend? (h : steps.foldlM Sequence.extend? output = some output') :
    output.size ≤ output'.size := by
  induction steps generalizing output with
  | nil =>
    obtain rfl := Option.some.inj h
    exact Nat.le_refl _
  | cons s steps ih =>
    rw [List.foldlM_cons] at h
    obtain ⟨extended, hextend, hrest⟩ := Option.bind_eq_some_iff.mp h
    exact Nat.le_trans (size_le_of_extend? hextend) (ih hrest)

/-- **Sequences are played if what all of them make of the output fits.** -/
theorem foldlM_play? (steps : List Sequence) (h : output.size ≤ room) :
    steps.foldlM (Sequence.play? room) output =
      (steps.foldlM Sequence.extend? output).filter fun o => o.size ≤ room := by
  induction steps generalizing output with
  | nil => simp [Option.filter, h]
  | cons s steps ih =>
    rw [List.foldlM_cons, List.foldlM_cons, play?_eq]
    cases hextend : s.extend? output with
    | none => rfl
    | some extended =>
      by_cases hfits : extended.size ≤ room
      · simpa [Option.filter, hfits] using ih hfits
      · -- it does not fit, and neither does anything that the rest could make of it
        simp only [Option.filter, hfits, decide_false, Option.bind_eq_bind, Option.bind_some]
        cases hrest : steps.foldlM Sequence.extend? extended with
        | none => rfl
        | some output' =>
          have hgrown := size_le_of_foldlM_extend? hrest
          simp [show ¬ output'.size ≤ room by omega]

/-! ### A block -/

/-- What a block holds, if it is one. -/
def contents? (block : Bytes) : Option Bytes :=
  (sequences? block).bind fun steps => (steps.foldlM Sequence.extend? #[]).map Array.toList

/-- **What a block holds is decompressed if it fits the room.** -/
theorem decompress_eq_filter (block : Bytes) (room : Nat) :
    decompress block room = (contents? block).filter fun bytes => bytes.length ≤ room := by
  have hempty : (#[] : Array UInt8).size ≤ room := Nat.zero_le room
  rw [decompress, contents?]
  cases sequences? block with
  | none => rfl
  | some steps =>
    simp only [Option.bind_eq_bind, Option.bind_some, foldlM_play? steps hempty]
    cases steps.foldlM Sequence.extend? #[] with
    | none => rfl
    | some output =>
      by_cases hfits : output.size ≤ room <;> simp [Option.filter, hfits]

/-! ### Blocks of literals -/

/-- A block of literals is longer than what it holds, by the byte that says so and by one for every
255 bytes. -/
theorem length_compress {bytes : Bytes} (h : 15 ≤ bytes.length) :
    (compress bytes).length = bytes.length + (bytes.length - 15) / 255 + 2 := by
  rw [compress, if_neg (by omega)]
  simp only [excessBytes, List.length_cons, List.length_append, List.length_replicate,
    List.length_nil]
  omega

theorem takeLength?_excessBytes {n : Nat} (h : 15 ≤ n) (rest : Bytes) :
    takeLength? 15 (excessBytes (n - 15) ++ rest) = some (n, rest) := by
  simp only [takeLength?, if_pos, takeExcess?_excessBytes, Option.map_some, Nat.sub_add_cancel h]

/-- **Literals that are cut off are noticed**: a block that says how many there are does not hold
fewer. -/
theorem decompress_take_compress {bytes : Bytes} {kept : Nat} (h : 15 ≤ bytes.length)
    (hkept : kept < bytes.length) (room : Nat) :
    decompress ((compress bytes).take ((compress bytes).length - bytes.length + kept)) room =
      none := by
  have hexcess : (excessBytes (bytes.length - 15)).length = (bytes.length - 15) / 255 + 1 := by
    simp [excessBytes]
  have hcount : (compress bytes).length - bytes.length + kept =
      (excessBytes (bytes.length - 15)).length + kept + 1 := by
    rw [length_compress h]
    omega
  have hblock : (compress bytes).take ((compress bytes).length - bytes.length + kept) =
      0xf0 :: (excessBytes (bytes.length - 15) ++ bytes.take kept) := by
    rw [hcount, compress, if_neg (Nat.not_lt.mpr h), List.take_succ_cons,
      List.take_length_add_append]
  have hshort : (bytes.take kept).length < bytes.length := by
    rw [List.length_take]
    omega
  have hsequence : Sequence.take? (0xf0 :: (excessBytes (bytes.length - 15) ++ bytes.take kept)) =
      none := by
    have hdiv : (0xf0 : UInt8).toNat / 16 = 15 := rfl
    simp only [Sequence.take?, hdiv, takeLength?_excessBytes h, Option.bind_eq_bind,
      Option.bind_some, if_pos hshort]
  rw [hblock, decompress, sequences?, List.length_cons, sequencesWithin?, hsequence]
  rfl

end Lz4

end Deposition
