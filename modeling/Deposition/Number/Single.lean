import Deposition.Number.Binary

/-!
# Single-precision numbers as the wire carries them

A coordinate travels as four bytes, and what comes back out of an archive has to be the same four
bytes. The hardware's notion of a single-precision number is too coarse for that: it may replace
one pattern that is no number by another. So a `Deposition.Single` *is* its bit pattern, equality
is equality of patterns, and arithmetic goes through the number the pattern stands for.

Comparison needs no arithmetic at all. `Deposition.Single.rank` sends a pattern to an integer, zero
of either sign to the same one and a pattern that is no number nowhere, and one number lies below
another exactly when its rank does.
-/

namespace Deposition

/-- A single-precision number, by its bit pattern. -/
structure Single where
  /-- Sign, exponent and significand, from the highest bit down. -/
  bits : UInt32
deriving DecidableEq, Inhabited

namespace Single

/-- Positive zero. -/
def zero : Single := ⟨0⟩

/-- The largest finite number. -/
def greatest : Single := ⟨0x7f7fffff⟩

/-- The exact value of the pattern. -/
def value (s : Single) : Binary.Value := Binary.single.decode s.bits.toNat

/-- The pattern nearest to a value. -/
def ofValue (v : Binary.Value) : Single := ⟨UInt32.ofNat (Binary.single.encode v)⟩

/-- The single-precision number nearest to a whole one. -/
def ofNat (n : Nat) : Single := ofValue (.finite false n 0)

/-- The same number in double precision. -/
def toFloat (s : Single) : Float := Binary.toFloat s.value

/-- The nearest single-precision number. -/
def ofFloat (x : Float) : Single := ofValue (Binary.ofFloat x)

/-- Whether the pattern stands for no number. -/
def isNaN (s : Single) : Bool := s.value == .nan

/-- Where a number lies among the others, zeros of both signs together. -/
def rank (s : Single) : Option Int :=
  if s.isNaN then none
  else
    let magnitude : Int := (s.bits.toNat % Binary.single.signBit : Nat)
    some (if Binary.single.signBit ≤ s.bits.toNat then -magnitude else magnitude)

/-- Whether the first number lies below the second; false when either is no number. -/
def lt (a b : Single) : Bool :=
  match a.rank, b.rank with
  | some x, some y => x < y
  | _, _ => false

/-- The sum, rounded to single precision. -/
def add (a b : Single) : Single := ⟨(Float32.ofBits a.bits + Float32.ofBits b.bits).toBits⟩

/-- The difference, rounded to single precision. -/
def sub (a b : Single) : Single := ⟨(Float32.ofBits a.bits - Float32.ofBits b.bits).toBits⟩

/-- The product, rounded to single precision. -/
def mul (a b : Single) : Single := ⟨(Float32.ofBits a.bits * Float32.ofBits b.bits).toBits⟩

/-- The quotient, rounded to single precision. -/
def div (a b : Single) : Single := ⟨(Float32.ofBits a.bits / Float32.ofBits b.bits).toBits⟩

/-- Ten, the number of ångström in a nanometre. -/
def ten : Single := ⟨0x41200000⟩

theorem lt_iff {a b : Single} :
    a.lt b = true ↔ ∃ x y, a.rank = some x ∧ b.rank = some y ∧ x < y := by
  unfold lt
  split <;> simp_all

end Single

end Deposition
