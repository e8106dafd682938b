import Deposition.Number.Binary
import Deposition.Text.Blank

/-!
# Reading numbers that a user typed

The number in an argument such as `name=1.5e3` is an optional sign, digits with an optional point –
there must be a digit on one side of it – and an optional exponent; or one of the words for infinity
and for no number, in any mixture of case. It is read as the nearest double-precision number.

The digits and the exponent can be as long as the user likes. `Deposition.Numeral.value` looks at
the size of the number before it builds it, so that a long exponent costs nothing; then it rounds
the exact quotient once.
-/

namespace Deposition

/-- A decimal number as it is written. -/
structure Numeral where
  /-- Whether it has a minus sign. -/
  negative : Bool
  /-- Digits before the point. -/
  whole : List Char
  /-- Digits after the point. -/
  fraction : List Char
  /-- The exponent. -/
  exponent : Int
deriving DecidableEq

namespace Numeral

/-- The nearest double-precision number. A numeral of this many digits lies between two powers of
ten, and outside the range of the format it is zero or infinite whatever the digits are. -/
def value (n : Numeral) : Binary.Value :=
  let digits := (n.whole ++ n.fraction).dropWhile (· == '0')
  let scale : Int := n.exponent - n.fraction.length
  if digits.isEmpty || digits.length + scale < -330 then
    .finite n.negative 0 Binary.double.unit
  else if 310 < digits.length + scale then .infinite n.negative
  else
    Binary.double.nearest n.negative (Text.digitsValue digits * Nat.pow 10 scale.toNat)
      (Nat.pow 10 (-scale).toNat)

end Numeral

namespace Number

/-- A sign, if there is one, and the rest; the flag says whether it is a minus. -/
def takeSign : List Char → Bool × List Char
  | '-' :: rest => (true, rest)
  | '+' :: rest => (false, rest)
  | cs => (false, cs)

/-- The exponent that ends a number: nothing, or a mark, a sign and digits. -/
def exponent? : List Char → Option Int
  | [] => some 0
  | mark :: rest =>
    if mark == 'e' || mark == 'E' then
      let (negative, digits) := takeSign rest
      if digits.isEmpty || !digits.all Text.isDigit then none
      else
        let value : Int := Text.digitsValue digits
        some (if negative then -value else value)
    else none

/-- The numeral that a run of characters is. -/
def numeral? (cs : List Char) : Option Numeral :=
  let (negative, rest) := takeSign cs
  let whole := rest.takeWhile Text.isDigit
  let rest := rest.dropWhile Text.isDigit
  let (fraction, rest) := match rest with
    | '.' :: rest => (rest.takeWhile Text.isDigit, rest.dropWhile Text.isDigit)
    | rest => ([], rest)
  if whole.isEmpty && fraction.isEmpty then none
  else (exponent? rest).map fun e => ⟨negative, whole, fraction, e⟩

/-- A letter in lower case. -/
def lower (c : Char) : Char :=
  if 65 ≤ c.toNat && c.toNat ≤ 90 then Char.ofNat (c.toNat + 32) else c

/-- The value of a word that stands for infinity or for no number. -/
def word? (cs : List Char) : Option Binary.Value :=
  let (negative, rest) := takeSign cs
  let word := String.ofList (rest.map lower)
  if word == "inf" || word == "infinity" then some (.infinite negative)
  else if word == "nan" then some .nan
  else none

/-- The double-precision value that a text denotes. -/
def read? (s : String) : Option Binary.Value :=
  match numeral? s.toList with
  | some n => some n.value
  | none => word? s.toList

end Number

end Deposition
