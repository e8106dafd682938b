import Deposition.Text.Quoted
import Deposition.Url.Basic

/-!
# Domain names

A domain name goes out in ASCII. Its labels are compared without regard to case, so they are put in
lower case; wide forms of ASCII become ASCII; characters that cannot be seen drop out. A label that
still has other characters is written in Punycode behind `xn--`, and a label that claims to be
written so has to be readable.

Punycode writes the ASCII characters of a label first and then, in order of their code points,
where the others go: each as the distance from the last one, in digits whose weights adapt to the
distances seen so far.
-/

namespace Deposition

namespace Punycode

/-- The number of digits. -/
def base : Nat := 36

/-- The digit of a value: letters first. -/
def digit (n : Nat) : Char := Char.ofNat (if n < 26 then 97 + n else 22 + n)

/-- The value of a digit. -/
def digitValue? (c : Char) : Option Nat :=
  let n := c.toNat
  if 97 ≤ n && n ≤ 122 then some (n - 97)
  else if 48 ≤ n && n ≤ 57 then some (n - 22)
  else none

/-- The threshold of a digit's place under a bias. -/
def threshold (place bias : Nat) : Nat := max 1 (min 26 (place - bias))

/-- The bias after a distance that has to be halved `fuel` times at most. -/
def settle : (fuel : Nat) → (delta k : Nat) → Nat
  | 0, delta, k => k + 36 * delta / (delta + 38)
  | fuel + 1, delta, k =>
    if 455 < delta then settle fuel (delta / 35) (k + base) else k + 36 * delta / (delta + 38)

/-- The bias after a distance among so many characters. -/
def adapt (delta count : Nat) (first : Bool) : Nat :=
  let delta := if first then delta / 700 else delta / 2
  let delta := delta + delta / count
  settle (delta.log2 + 1) delta 0

/-- A distance in digits, of which there are at most `fuel`. -/
def distanceDigits (bias : Nat) : (fuel : Nat) → (place rest : Nat) → List Char
  | 0, _, _ => []
  | fuel + 1, place, rest =>
    let t := threshold place bias
    if rest < t then [digit rest]
    else
      digit (t + (rest - t) % (base - t)) ::
        distanceDigits bias fuel (place + base) ((rest - t) / (base - t))

/-- Where a label is written: the code point and the distance reached, the bias, how many characters
are written, and the digits so far. -/
structure Writing where
  /-- The code point reached. -/
  point : Nat := 128
  /-- The distance since the last character written. -/
  delta : Nat := 0
  /-- The bias of the next distance. -/
  bias : Nat := 72
  /-- How many characters are written. -/
  count : Nat
  /-- Whether no distance has been written yet. -/
  first : Bool := true
  /-- The digits so far. -/
  digits : List Char := []

/-- Passes over one character of the label while the characters of one code point are written. -/
def Writing.pass (point : Nat) (w : Writing) (c : Nat) : Writing :=
  if c < point then { w with delta := w.delta + 1 }
  else if c = point then
    { w with
      delta := 0
      bias := adapt w.delta (w.count + 1) w.first
      count := w.count + 1
      first := false
      digits := w.digits ++ distanceDigits w.bias (w.delta.log2 + 2) base w.delta }
  else w

/-- Writes the characters of one code point. -/
def Writing.write (label : List Nat) (w : Writing) (point : Nat) : Writing :=
  let w := { w with delta := w.delta + (point - w.point) * (w.count + 1) }
  let w := label.foldl (Writing.pass point) w
  { w with point := point + 1, delta := w.delta + 1 }

/-- A label in Punycode. -/
def encode (label : List Char) : List Char :=
  let points := label.map Char.toNat
  let ascii := label.filter fun c => c.toNat < 128
  let others := ((points.filter (128 ≤ ·)).mergeSort (· ≤ ·)).eraseDups
  let written := others.foldl (Writing.write points) { count := ascii.length }
  ascii ++ (if ascii.isEmpty then [] else ['-']) ++ written.digits

/-- A distance read from digits, with what follows it. -/
def takeDistance? (bias : Nat) :
    List Char → (place weight acc : Nat) → Option (Nat × List Char)
  | [], _, _, _ => none
  | c :: rest, place, weight, acc => do
    let d ← digitValue? c
    let acc := acc + d * weight
    let t := threshold place bias
    if d < t then some (acc, rest)
    else takeDistance? bias rest (place + base) (weight * (base - t)) acc

/-- The characters that digits put into a label. Every distance takes a digit, so there are at most
`fuel`. -/
def insertFrom? : (fuel : Nat) → List Char → (output : List Nat) → (point index bias : Nat) →
    (first : Bool) → Option (List Nat)
  | _, [], output, _, _, _, _ => some output
  | 0, _ :: _, _, _, _, _, _ => none
  | fuel + 1, digits, output, point, index, bias, first => do
    let (delta, rest) ← takeDistance? bias digits base 1 0
    let count := output.length + 1
    let reached := index + delta
    let point := point + reached / count
    let place := reached % count
    if 0x10ffff < point ∨ (0xd800 ≤ point ∧ point < 0xe000) then none
    else
      insertFrom? fuel rest (output.take place ++ point :: output.drop place) point (place + 1)
        (adapt delta count first) false

/-- The label that Punycode writes. -/
def decode? (cs : List Char) : Option (List Char) :=
  let reversed := cs.reverse
  let (ascii, digits) :=
    if cs.contains '-' then
      (((reversed.dropWhile (· != '-')).drop 1).reverse, (reversed.takeWhile (· != '-')).reverse)
    else ([], cs)
  (insertFrom? digits.length digits (ascii.map Char.toNat) 128 0 72 true).map
    fun points => points.map Char.ofNat

end Punycode

namespace Domain

/-- The runs of capital letters with a fixed distance to the small ones. -/
def capitals : List (Nat × Nat × Nat) :=
  [(0x41, 0x5a, 32), (0xc0, 0xd6, 32), (0xd8, 0xde, 32), (0x386, 0x386, 38), (0x388, 0x38a, 37),
    (0x38c, 0x38c, 64), (0x38e, 0x38f, 63), (0x391, 0x3a1, 32), (0x3a3, 0x3ab, 32),
    (0x400, 0x40f, 80), (0x410, 0x42f, 32), (0x531, 0x556, 48)]

/-- The runs in which every capital letter stands in front of its small one. -/
def alternating : List (Nat × Nat) :=
  [(0x100, 0x12f), (0x134, 0x137), (0x139, 0x13e), (0x141, 0x148), (0x14a, 0x177), (0x179, 0x17e),
    (0x460, 0x481), (0x48a, 0x4bf), (0x4d0, 0x52f), (0x1e00, 0x1e95), (0x1ea0, 0x1eff)]

/-- A character in lower case. -/
def lower (c : Char) : Char :=
  let n := c.toNat
  match capitals.find? fun (low, high, _) => low ≤ n && n ≤ high with
  | some (_, _, distance) => Char.ofNat (n + distance)
  | none =>
    match alternating.find? fun (low, high) => low ≤ n && n ≤ high with
    | some (low, _) => if (n - low) % 2 = 0 then Char.ofNat (n + 1) else c
    | none => c

/-- Whether a character drops out of a name. -/
def isIgnored (c : Char) : Bool :=
  let n := c.toNat
  n == 0xad || n == 0x200b || n == 0x2060 || n == 0xfeff || (0xfe00 ≤ n && n ≤ 0xfe0f)

/-- A character as a name has it: narrow and in lower case, the dots of other scripts as a dot, and
the ideographic space as a space. -/
def normal (c : Char) : Char :=
  let n := c.toNat
  if 0xff01 ≤ n && n ≤ 0xff5e then lower (Char.ofNat (n - 0xfee0))
  else if n == 0x3002 || n == 0xff61 then '.'
  else if n == 0x3000 || n == 0xa0 then ' '
  else lower c

/-- Whether an ASCII character cannot be in a name. -/
def isForbidden (c : Char) : Bool :=
  let n := c.toNat
  n ≤ 0x20 || n == 0x7f || "#/:<>?@[\\]^|%".toList.contains c

/-- The labels of a name. -/
def labels (cs : List Char) : List (List Char) :=
  match cs with
  | [] => [[]]
  | '.' :: rest => [] :: labels rest
  | c :: rest =>
    match labels rest with
    | label :: others => (c :: label) :: others
    | [] => [[c]]

/-- Whether a character can be in a label that has been put into Punycode: one that would have been
kept as it is. -/
def isSettled (c : Char) : Bool :=
  normal c == c && !isIgnored c && !isForbidden c && (c.toNat < 128 || !Quoted.isHidden c)

/-- Whether a label is the Punycode of a label that needs it. -/
def isPunycode (label : List Char) : Bool :=
  match Punycode.decode? (label.drop 4) with
  | some decoded =>
    decoded.any (128 ≤ ·.toNat) && decoded.all isSettled && Punycode.encode decoded == label.drop 4
  | none => false

/-- A label in ASCII, if it has one. -/
def asciiLabel? (label : List Char) : Option (List Char) :=
  if "xn--".toList.isPrefixOf label then if isPunycode label then some label else none
  else if label.all fun c => c.toNat < 128 then some label
  else if label.any Quoted.isHidden then none
  else some ("xn--".toList ++ Punycode.encode label)

/-- A domain name in ASCII, if it has one. -/
def ascii? (name : String) : Option String :=
  let cs := (name.toList.filter fun c => !isIgnored c).map normal
  if cs.any isForbidden then none
  else
    ((labels cs).mapM asciiLabel?).map fun parts =>
      String.intercalate "." (parts.map String.ofList)

end Domain

end Deposition
