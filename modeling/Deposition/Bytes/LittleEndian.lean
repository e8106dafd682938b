/-!
# Little-endian words

Everything the simulation server sends in binary, and everything an archive holds, is built
from bytes and 32-bit words, least significant byte first. This file fixes the two views of a
word – the number and its four bytes – and how a word is taken off the front of a run of bytes
or read in the middle of one.

The words are kept as sums of bytes rather than as shifts, so that
`Deposition.Word.ofBytes_toBytes` and `Deposition.Word.toBytes_ofBytes` are arithmetic: the two
views carry the same information.
-/

namespace Deposition

/-- A run of bytes, in the order in which they travel. -/
abbrev Bytes := List UInt8

namespace Word

/-- The four bytes of a word, least significant first. -/
def toBytes (w : UInt32) : Bytes :=
  [UInt8.ofNat w.toNat, UInt8.ofNat (w.toNat / 256), UInt8.ofNat (w.toNat / 65536),
    UInt8.ofNat (w.toNat / 16777216)]

/-- The word whose bytes are these, least significant first. -/
def ofBytes (b₀ b₁ b₂ b₃ : UInt8) : UInt32 :=
  UInt32.ofNat (b₀.toNat + 256 * b₁.toNat + 65536 * b₂.toNat + 16777216 * b₃.toNat)

/-- The word at the front of a run of bytes, with what follows it. -/
def take? : Bytes → Option (UInt32 × Bytes)
  | b₀ :: b₁ :: b₂ :: b₃ :: rest => some (ofBytes b₀ b₁ b₂ b₃, rest)
  | _ => none

/-- The word that starts `offset` bytes into a run, if all four of its bytes are there. -/
def at? (bytes : Bytes) (offset : Nat) : Option UInt32 :=
  (take? (bytes.drop offset)).map Prod.fst

@[simp] theorem length_toBytes (w : UInt32) : (toBytes w).length = 4 := rfl

theorem toNat_ofBytes (b₀ b₁ b₂ b₃ : UInt8) :
    (ofBytes b₀ b₁ b₂ b₃).toNat =
      b₀.toNat + 256 * b₁.toNat + 65536 * b₂.toNat + 16777216 * b₃.toNat := by
  have h₀ := b₀.toNat_lt
  have h₁ := b₁.toNat_lt
  have h₂ := b₂.toNat_lt
  have h₃ := b₃.toNat_lt
  rw [ofBytes, UInt32.toNat_ofNat', Nat.mod_eq_of_lt]
  omega

/-- Writing a word and reading it back gives the word. -/
@[simp] theorem take?_toBytes_append (w : UInt32) (rest : Bytes) :
    take? (toBytes w ++ rest) = some (w, rest) := by
  have h := w.toNat_lt
  simp only [toBytes, List.cons_append, List.nil_append, take?, Option.some.injEq,
    Prod.mk.injEq, and_true]
  apply UInt32.toNat_inj.1
  rw [toNat_ofBytes]
  simp only [UInt8.toNat_ofNat']
  omega

/-- The bytes of a word read off four bytes are those four bytes. -/
theorem toBytes_ofBytes (b₀ b₁ b₂ b₃ : UInt8) :
    toBytes (ofBytes b₀ b₁ b₂ b₃) = [b₀, b₁, b₂, b₃] := by
  have h₀ := b₀.toNat_lt
  have h₁ := b₁.toNat_lt
  have h₂ := b₂.toNat_lt
  have h₃ := b₃.toNat_lt
  simp only [toBytes, List.cons.injEq, and_true, ← UInt8.toNat_inj, toNat_ofBytes,
    UInt8.toNat_ofNat']
  omega

/-- Whatever is taken off the front is exactly the front. -/
theorem eq_of_take?_eq_some {bytes rest : Bytes} {w : UInt32}
    (h : take? bytes = some (w, rest)) : bytes = toBytes w ++ rest := by
  match bytes, h with
  | b₀ :: b₁ :: b₂ :: b₃ :: tail, h =>
    simp only [take?, Option.some.injEq, Prod.mk.injEq] at h
    rw [← h.1, ← h.2, toBytes_ofBytes]
    rfl

end Word

end Deposition
