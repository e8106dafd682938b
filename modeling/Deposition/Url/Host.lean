import Deposition.Url.Domain

/-!
# Hosts

The host of a URL is an IPv6 address in brackets, an IPv4 address, or a name. A name whose last
label is a number has to be an IPv4 address; such an address may have fewer than four parts, of
which the last then fills the rest, and each part may be decimal, octal or hexadecimal. In URLs of
unknown schemes a host is a name of which nothing is known.

Addresses are written in one way whatever way they were given in.
-/

namespace Deposition

namespace Host

/-! ### IPv4 addresses -/

/-- The value of digits in a base, if they all are digits of it. -/
def digitsIn? (base : Nat) (cs : List Char) : Option Nat :=
  cs.foldlM (fun n c => do
    let d ← Url.hexValue? (UInt8.ofNat c.toNat)
    if c.toNat < 128 ∧ d < base then some (base * n + d) else none) 0

/-- A part of an IPv4 address: hexadecimal behind `0x`, octal behind a zero, else decimal. -/
def ipv4Part? (part : List Char) : Option Nat :=
  match part with
  | [] => none
  | '0' :: 'x' :: digits => digitsIn? 16 digits
  | '0' :: 'X' :: digits => digitsIn? 16 digits
  | '0' :: d :: digits => digitsIn? 8 (d :: digits)
  | digits => digitsIn? 10 digits

/-- The labels of a name without the empty one behind a final dot. -/
def significantLabels (name : String) : List (List Char) :=
  let labels := Domain.labels name.toList
  if labels.getLast? = some [] then labels.dropLast else labels

/-- Whether the last label of a name is a number. -/
def endsInNumber (name : String) : Bool :=
  match (significantLabels name).getLast? with
  | none => false
  | some last =>
    (!last.isEmpty && last.all fun c => c.isDigit) || (ipv4Part? last).isSome

/-- The number that the parts of an IPv4 address make: all but the last are bytes, and the last
fills what they leave. -/
def ipv4Number? (parts : List Nat) : Option Nat :=
  match parts.reverse with
  | [] => none
  | last :: others =>
    if 3 < others.length ∨ others.any (255 < ·) ∨ Nat.pow 256 (4 - others.length) ≤ last then none
    else
      some (others.reverse.foldl (fun n p => 256 * n + p) 0 * Nat.pow 256 (4 - others.length) +
        last)

/-- An IPv4 address with four decimal parts. -/
def ipv4Text (n : Nat) : String :=
  s!"{n / 16777216 % 256}.{n / 65536 % 256}.{n / 256 % 256}.{n % 256}"

/-- Reads an IPv4 address. -/
def ipv4? (name : String) : Option String := do
  let parts ← (significantLabels name).mapM ipv4Part?
  return ipv4Text (← ipv4Number? parts)

/-! ### IPv6 addresses -/

/-- Text cut at every colon. -/
def groups (cs : List Char) : List (List Char) :=
  match cs with
  | [] => [[]]
  | ':' :: rest => [] :: groups rest
  | c :: rest =>
    match groups rest with
    | group :: others => (c :: group) :: others
    | [] => [[c]]

/-- A byte of an IPv4 address inside an IPv6 one: decimal, without a zero in front. -/
def plainByte? (cs : List Char) : Option Nat :=
  match cs with
  | [] => none
  | '0' :: _ :: _ => none
  | digits => (digitsIn? 10 digits).filter (· ≤ 255)

/-- The pieces of a run of groups; an IPv4 address may stand for the last two. -/
def pieces? : List (List Char) → Option (List Nat)
  | [] => some []
  | [last] =>
    if last.contains '.' then
      match (Domain.labels last).mapM plainByte? with
      | some [a, b, c, d] => some [256 * a + b, 256 * c + d]
      | _ => none
    else if last.isEmpty ∨ 4 < last.length then none
    else (digitsIn? 16 last).map ([·])
  | group :: rest =>
    if group.isEmpty ∨ 4 < group.length then none
    else do
      let piece ← digitsIn? 16 group
      return piece :: (← pieces? rest)

/-- The parts of a text on both sides of its first pair of colons. -/
def cutAtGap? : List Char → Option (List Char × List Char)
  | ':' :: ':' :: rest => some ([], rest)
  | c :: rest => (cutAtGap? rest).map fun (before, after) => (c :: before, after)
  | [] => none

/-- The pieces of a side of the gap, which may be empty. -/
def side? (cs : List Char) : Option (List Nat) :=
  if cs.isEmpty then some [] else pieces? (groups cs)

/-- The eight pieces of an IPv6 address. A gap stands for at least one piece of zero. -/
def ipv6Pieces? (cs : List Char) : Option (List Nat) :=
  match cutAtGap? cs with
  | none => (pieces? (groups cs)).filter fun p => p.length = 8
  | some (before, after) => do
    let before ← if before.contains '.' then none else side? before
    let after ← side? after
    if 7 < before.length + after.length then none
    else some (before ++ List.replicate (8 - before.length - after.length) 0 ++ after)

/-- How many zeros a list begins with. -/
def leadingZeros (l : List Nat) : Nat := (l.takeWhile (· == 0)).length

/-- Where the longest run of zeros starts and how long it is; of equally long ones the first. -/
def longestZeros (pieces : List Nat) : Nat × Nat :=
  (List.range pieces.length).foldl (fun (start, length) i =>
    let here := leadingZeros (pieces.drop i)
    if length < here then (i, here) else (start, length)) (0, 0)

/-- Pieces in hexadecimal with colons between them. -/
def pieceText (pieces : List Nat) : String :=
  String.intercalate ":" (pieces.map fun p => String.ofList (Nat.toDigits 16 p))

/-- An IPv6 address with its longest run of zeros left out, if that is longer than one. -/
def ipv6Text (pieces : List Nat) : String :=
  let (start, length) := longestZeros pieces
  if length < 2 then pieceText pieces
  else pieceText (pieces.take start) ++ "::" ++ pieceText (pieces.drop (start + length))

/-- Reads an IPv6 address with its brackets. -/
def bracketed (cs : List Char) : Except UrlError String :=
  match cs.reverse with
  | ']' :: inner =>
    match ipv6Pieces? (inner.reverse.drop 1) with
    | some pieces => .ok ("[" ++ ipv6Text pieces ++ "]")
    | none => .error .badIpv6
  | _ => .error .badIpv6

/-! ### Names -/

/-- Reads the host of a URL of a known scheme. -/
def ofSpecial (s : String) : Except UrlError String :=
  if s.startsWith "[" then bracketed s.toList
  else
    match (Utf8.decode? (Url.percentDecode (Utf8.encode s))).bind Domain.ascii? with
    | none => .error .badDomain
    | some name =>
      if name.isEmpty then .error .emptyHost
      else if endsInNumber name then
        match ipv4? name with
        | some address => .ok address
        | none => .error .badIpv4
      else .ok name

/-- Reads the host of a URL of an unknown scheme. -/
def ofOther (s : String) : Except UrlError String :=
  if s.startsWith "[" then bracketed s.toList
  else if s.toList.any fun c => "\x00\t\n\r #/:<>?@[\\]^|".toList.contains c then
    .error .badHostCharacter
  else .ok (Url.percentEncode Url.isControl s)

end Host

end Deposition
