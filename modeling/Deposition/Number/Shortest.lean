import Deposition.Number.Binary

/-!
# The fewest digits that read back

A number is written with as few significant digits as will still read back as the same bit pattern,
and among the texts of that length with the one nearest to the exact value. The reals that read back
as `m · 2^q` form an interval around it, reaching half-way to either neighbour and containing its
ends exactly when `m` is even. So the digits are found by looking, for one digit, then two, and so
on, at the two points of that decimal grid on either side of the value, and stopping at the first
grid that has one of them inside the interval.

Nothing is approximated: both sides of every comparison are multiplied out to integers.
-/

namespace Deposition

/-- The number `digits · 10^exponent`. -/
structure Decimal where
  /-- The significant digits, as a number. -/
  digits : Nat
  /-- The power of ten of the last digit. -/
  exponent : Int
deriving DecidableEq

/-- Which of two equally near decimals is chosen. -/
inductive Tie
  /-- The one with an even last digit. -/
  | even
  /-- The greater one. -/
  | up
deriving DecidableEq

namespace Shortest

/-- The integer factors that compare multiples of `2^q` with multiples of `10^p`: `x · 2^q` lies
below `d · 10^p` exactly when `x` times the first lies below `d` times the second. -/
def factors (q p : Int) : Nat × Nat :=
  (Nat.pow 2 q.toNat * Nat.pow 10 (-p).toNat, Nat.pow 2 (-q).toNat * Nat.pow 10 p.toNat)

/-- Whether `10^e` is at most `m · 2^q`. -/
def powerBelow (m : Nat) (q e : Int) : Bool :=
  let (binary, decimal) := factors q e
  decimal ≤ m * binary

/-- The exponent of the first decimal digit of `m · 2^q`. The logarithm of two is taken to five
places, which is off by at most one over the range of the formats, and then corrected. -/
def leadingExponent (m : Nat) (q : Int) : Int :=
  let guess := (q + Nat.log2 m) * 30103 / 100000
  if !powerBelow m q guess then guess - 1
  else if powerBelow m q (guess + 1) then guess + 1
  else guess

/-- The reals that read back as a number, in units of a quarter of its last bit. -/
structure Interval where
  /-- The lower end. -/
  low : Nat
  /-- The number itself. -/
  value : Nat
  /-- The upper end. -/
  high : Nat
  /-- Whether the ends belong to it. -/
  closed : Bool

/-- The interval of `m · 2^q`. Below a power of two the neighbour is only half as far away, unless
there is no smaller exponent. -/
def Interval.around (f : Binary.Format) (m : Nat) (q : Int) : Interval :=
  let narrow := m = Nat.pow 2 f.fraction ∧ f.unit < q
  { low := 4 * m - (if narrow then 1 else 2)
    value := 4 * m
    high := 4 * m + 2
    closed := m % 2 = 0 }

/-- The better of the two points next to the value on the grid of `10^p`, if either of them lies in
the interval. -/
def Interval.onGrid? (i : Interval) (tie : Tie) (q p : Int) : Option Nat :=
  let (binary, decimal) := factors (q - 2) p
  let below := i.value * binary / decimal
  let inside (d : Nat) : Bool :=
    if i.closed then i.low * binary ≤ d * decimal && d * decimal ≤ i.high * binary
    else i.low * binary < d * decimal && d * decimal < i.high * binary
  match inside below, inside (below + 1) with
  | false, false => none
  | true, false => some below
  | false, true => some (below + 1)
  | true, true =>
    let twice := 2 * (i.value * binary - below * decimal)
    if twice < decimal then some below
    else if decimal < twice then some (below + 1)
    else
      match tie with
      | .up => some (below + 1)
      | .even => some (if below % 2 = 0 then below else below + 1)

/-- The first grid with a point inside the interval, starting from that of `10^p` and trying `fuel`
further ones. -/
def Interval.search (i : Interval) (tie : Tie) (q : Int) : (fuel : Nat) → (p : Int) → Decimal
  | 0, p => ⟨(i.onGrid? tie q p).getD 0, p⟩
  | fuel + 1, p =>
    match i.onGrid? tie q p with
    | some d => ⟨d, p⟩
    | none => i.search tie q fuel (p - 1)

/-- The same number without zeros at the end of its digits. At most `fuel` are taken off. -/
def stripZeros : (fuel : Nat) → Decimal → Decimal
  | 0, d => d
  | fuel + 1, d =>
    if d.digits % 10 = 0 ∧ d.digits ≠ 0 then stripZeros fuel ⟨d.digits / 10, d.exponent + 1⟩
    else d

end Shortest

/-- The shortest decimal that reads back as `m · 2^q`, for a positive `m`. Seventeen digits tell any
two numbers of either format apart. -/
def Binary.Format.shortest (f : Binary.Format) (tie : Tie) (m : Nat) (q : Int) : Decimal :=
  let found :=
    (Shortest.Interval.around f m q).search tie q 17 (Shortest.leadingExponent m q)
  Shortest.stripZeros 20 found

end Deposition
