import Deposition.Number.Single
import Deposition.Number.Shortest

/-!
# How numbers are laid out

The digits of a number are a matter of arithmetic; where the point goes, when an exponent takes
over and what stands for infinity are decisions of each place that writes numbers. A
`Deposition.Layout` holds those decisions, and this file lays digits out by them. Fixed-point text
is the other way to write a number: so many places, the exact value rounded to the nearest, a half
to the even neighbour.
-/

namespace Deposition

/-- The decisions of a place that writes numbers with the fewest digits. -/
structure Layout where
  /-- Which of two equally near decimals is chosen. -/
  tie : Tie
  /-- The lowest and highest exponents of a first digit that are written without an exponent; with
  none, every number is. -/
  positional : Option (Int × Int)
  /-- Whether a whole number keeps `.0`. -/
  keepsPoint : Bool
  /-- What stands for a value that is no number. -/
  nan : String
  /-- What stands for infinity, its sign aside. -/
  infinite : String

namespace Layout

/-- Decimal digits of a number. -/
def digitChars (n : Nat) : List Char := Nat.toDigits 10 n

/-- A run of zeros. -/
def zeros (n : Nat) : List Char := List.replicate n '0'

/-- The number `digits · 10^exponent` without an exponent. -/
def positionalText (keepsPoint : Bool) (d : Decimal) : List Char :=
  let digits := digitChars d.digits
  let whole : Int := digits.length + d.exponent
  if 0 ≤ d.exponent then
    digits ++ zeros d.exponent.toNat ++ (if keepsPoint then ['.', '0'] else [])
  else if 0 < whole then digits.take whole.toNat ++ '.' :: digits.drop whole.toNat
  else '0' :: '.' :: (zeros (-whole).toNat ++ digits)

/-- The number `digits · 10^exponent` with one digit before the point and a signed exponent. -/
def exponentText (d : Decimal) : List Char :=
  let digits := digitChars d.digits
  let lead : Int := d.exponent + digits.length - 1
  let significand := match digits with
    | first :: rest => if rest.isEmpty then [first] else first :: '.' :: rest
    | [] => []
  significand ++ 'e' :: (if lead < 0 then '-' else '+') :: digitChars lead.natAbs

/-- The text of a value of the given format. -/
def text (l : Layout) (f : Binary.Format) : Binary.Value → String
  | .nan => l.nan
  | .infinite negative => if negative then "-" ++ l.infinite else l.infinite
  | .finite negative m q =>
    let magnitude :=
      if m = 0 then if l.keepsPoint then ['0', '.', '0'] else ['0']
      else
        let d := f.shortest l.tie m q
        let lead : Int := d.exponent + (digitChars d.digits).length - 1
        match l.positional with
        | none => positionalText l.keepsPoint d
        | some (lowest, highest) =>
          if lowest ≤ lead ∧ lead ≤ highest then positionalText l.keepsPoint d
          else exponentText d
    String.ofList (if negative then '-' :: magnitude else magnitude)

/-- Numbers in file names: never an exponent, and no point in a whole number. -/
def plain : Layout := ⟨.up, none, false, "NaN", "inf"⟩

/-- A number in so many decimal places, a half going to the even neighbour. The sign stays when what
is left of the number is zero. -/
def fixed (places : Nat) : Binary.Value → String
  | .nan => plain.nan
  | .infinite negative => if negative then "-" ++ plain.infinite else plain.infinite
  | .finite negative m q =>
    let units :=
      Binary.roundHalfEven (m * Nat.pow 2 q.toNat * Nat.pow 10 places) (Nat.pow 2 (-q).toNat)
    let digits := digitChars units
    let padded := zeros (places + 1 - digits.length) ++ digits
    let whole := padded.take (padded.length - places)
    let magnitude :=
      if places = 0 then whole else whole ++ '.' :: padded.drop (padded.length - places)
    String.ofList (if negative then '-' :: magnitude else magnitude)

end Layout

/-- A double-precision number as file names show it. -/
def plainText (x : Float) : String := Layout.plain.text Binary.double (Binary.ofFloat x)

/-- A double-precision number in so many decimal places. -/
def fixedText (places : Nat) (x : Float) : String := Layout.fixed places (Binary.ofFloat x)

/-- A single-precision number in so many decimal places. -/
def Single.fixedText (places : Nat) (s : Single) : String := Layout.fixed places s.value

end Deposition
