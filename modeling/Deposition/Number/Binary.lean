/-!
# Binary floating point, digit by digit

The positions of a trajectory are single-precision numbers, the settings of a job double-precision
ones, and several of the program's rules go through both: sums are taken in double precision and
stored in single, coordinates are cut down to integers, and numbers are written with the fewest
decimal digits. All of these are statements about the number that a bit pattern stands for, so
this file takes the patterns apart.

A `Deposition.Binary.Format` says how wide the fields of a pattern are. Its
`Deposition.Binary.Format.decode` gives the exact value, a signed multiple `m · 2^q` or one of the
values that are no number, and `Deposition.Binary.Format.encode` gives the pattern nearest to an
exact value, a tie going to the even pattern. Everything in between is arithmetic on integers.
-/

namespace Deposition

namespace Binary

/-- The widths of the two fields of a binary pattern; the sign is one more bit above them. -/
structure Format where
  /-- Stored bits of the significand. -/
  fraction : Nat
  /-- Bits of the exponent field. -/
  exponent : Nat

/-- Single precision, 32 bits. -/
def single : Format := ⟨23, 8⟩

/-- Double precision, 64 bits. -/
def double : Format := ⟨52, 11⟩

/-- The value of a bit pattern. -/
inductive Value
  /-- Not a number. -/
  | nan
  /-- Beyond every number, on the side of the sign. -/
  | infinite (negative : Bool)
  /-- The number `± significand · 2^exponent`; zero keeps its sign. -/
  | finite (negative : Bool) (significand : Nat) (exponent : Int)
deriving DecidableEq

namespace Format

variable (f : Format)

/-- The exponent of the smallest positive value. -/
def unit : Int := 2 - Nat.pow 2 (f.exponent - 1) - f.fraction

/-- The pattern of positive infinity; patterns above it, the sign aside, are no numbers. -/
def infinity : Nat := (Nat.pow 2 f.exponent - 1) * Nat.pow 2 f.fraction

/-- The weight of the sign bit. -/
def signBit : Nat := Nat.pow 2 (f.exponent + f.fraction)

/-- The exact value of a pattern. -/
def decode (bits : Nat) : Value :=
  let negative := decide (f.signBit ≤ bits)
  let magnitude := bits % f.signBit
  let field := magnitude / Nat.pow 2 f.fraction
  if f.infinity < magnitude then .nan
  else if magnitude = f.infinity then .infinite negative
  else if field = 0 then .finite negative magnitude f.unit
  else
    .finite negative (Nat.pow 2 f.fraction + magnitude % Nat.pow 2 f.fraction) (f.unit + field - 1)

end Format

/-- The integer nearest to a quotient; a tie goes to the even one. -/
def roundHalfEven (num den : Nat) : Nat :=
  let floor := num / den
  let twice := 2 * (num % den)
  if twice < den then floor
  else if den < twice then floor + 1
  else if floor % 2 = 0 then floor
  else floor + 1

/-- The integer nearest to a quotient; a tie goes up. -/
def roundHalfUp (num den : Nat) : Nat := (2 * num + den) / (2 * den)

/-- The pattern, sign aside, nearest to `m · 2^q`. Values past the last number are infinite, and a
significand that rounds up to the next power of two carries into the exponent field by itself. -/
def Format.encodeMagnitude (f : Format) (m : Nat) (q : Int) : Nat :=
  if m = 0 then 0
  else
    let e := max (q + Nat.log2 m - f.fraction) f.unit
    let significand :=
      if e ≤ q then m * Nat.pow 2 (q - e).toNat else roundHalfEven m (Nat.pow 2 (e - q).toNat)
    min ((e - f.unit).toNat * Nat.pow 2 f.fraction + significand) f.infinity

/-- The exponent of the first bit of a positive quotient: the greatest power of two that is not
above it. The difference of the two logarithms is that exponent or one more. -/
def leadingBit (num den : Nat) : Int :=
  let guess : Int := (Nat.log2 num : Int) - Nat.log2 den
  if num * Nat.pow 2 (-guess).toNat < den * Nat.pow 2 guess.toNat then guess - 1 else guess

/-- The greatest exponent of a number of the format. -/
def Format.limit (f : Format) : Int := f.unit + Nat.pow 2 f.exponent - 3

/-- The number of the format nearest to a quotient; a tie goes to the even significand. A
significand that rounds up to one bit more is written with the next exponent, and past the last
exponent there is only infinity. -/
def Format.nearest (f : Format) (negative : Bool) (num den : Nat) : Value :=
  if num = 0 then .finite negative 0 f.unit
  else
    let e := max (leadingBit num den - f.fraction) f.unit
    let rounded := roundHalfEven (num * Nat.pow 2 (-e).toNat) (den * Nat.pow 2 e.toNat)
    let (significand, e) :=
      if rounded = Nat.pow 2 (f.fraction + 1) then (Nat.pow 2 f.fraction, e + 1) else (rounded, e)
    if f.limit < e then .infinite negative else .finite negative significand e

/-- The pattern nearest to a value. -/
def Format.encode (f : Format) : Value → Nat
  | .nan => f.infinity + Nat.pow 2 (f.fraction - 1)
  | .infinite negative => (if negative then f.signBit else 0) + f.infinity
  | .finite negative m q => (if negative then f.signBit else 0) + f.encodeMagnitude m q

namespace Value

/-- The largest integer not above a number. -/
def floor (negative : Bool) (m : Nat) (q : Int) : Int :=
  let signed : Int := if negative then -m else m
  if 0 ≤ q then signed * Nat.pow 2 q.toNat else signed / Nat.pow 2 (-q).toNat

/-- The number without its fraction. -/
def truncate (m : Nat) (q : Int) : Nat :=
  if 0 ≤ q then m * Nat.pow 2 q.toNat else m / Nat.pow 2 (-q).toNat

/-- Whether a number without its sign lies above a whole one. -/
def exceeds (limit m : Nat) (q : Int) : Bool := limit * Nat.pow 2 (-q).toNat < m * Nat.pow 2 q.toNat

/-- Whether a value is a number. -/
def isFinite : Value → Bool
  | .finite _ _ _ => true
  | _ => false

/-- The nearest whole number; a half goes away from zero. -/
def round : Value → Value
  | .finite negative m q =>
    if 0 ≤ q then .finite negative m q
    else .finite negative (roundHalfUp m (Nat.pow 2 (-q).toNat)) 0
  | v => v

/-- Whether a value is a whole number. -/
def isWhole : Value → Bool
  | .finite _ m q => 0 ≤ q || m % Nat.pow 2 (-q).toNat == 0
  | _ => false

end Value

/-- The value of a double-precision number. -/
def ofFloat (x : Float) : Value := double.decode x.toBits.toNat

/-- The double-precision number nearest to a value. -/
def toFloat (v : Value) : Float := Float.ofBits (UInt64.ofNat (double.encode v))

end Binary

end Deposition
