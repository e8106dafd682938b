import Deposition.Text.Utf8

/-!
# URLs

The server of a job is given by the URL of its page; the address of the socket and that of the
catalog are derived from it. A URL is taken apart and put together by the rules that browsers use,
because that is how a user will have copied it.

This file holds the parts of a URL, their text, and percent-encoding. `Deposition.Url.Host` reads
hosts and `Deposition.Url.Parser` whole URLs.
-/

namespace Deposition

/-- Why a text is not a URL. -/
inductive UrlError
  /-- There has to be a host, and there is none. -/
  | emptyHost
  /-- The host is not a domain name. -/
  | badDomain
  /-- The port is not a number of 16 bits. -/
  | badPort
  /-- The host ends in a number and is not an IPv4 address. -/
  | badIpv4
  /-- The host is in brackets and is not an IPv6 address. -/
  | badIpv6
  /-- The host has a character that hosts do not have. -/
  | badHostCharacter
  /-- There is no scheme, and nothing to be relative to. -/
  | relativeWithoutBase
  /-- There is nothing to be relative to in a URL without a hierarchy. -/
  | relativeToOpaque
deriving DecidableEq

/-- What is said about a text that is not a URL. -/
def UrlError.message : UrlError → String
  | .emptyHost => "empty host"
  | .badDomain => "invalid international domain name"
  | .badPort => "invalid port number"
  | .badIpv4 => "invalid IPv4 address"
  | .badIpv6 => "invalid IPv6 address"
  | .badHostCharacter => "invalid domain character"
  | .relativeWithoutBase => "relative URL without a base"
  | .relativeToOpaque => "relative URL with a cannot-be-a-base base"

/-- The path of a URL. -/
inductive UrlPath
  /-- A text without a hierarchy. -/
  | opaquePath (text : String)
  /-- Segments, each with a slash in front. -/
  | segments (names : List String)
deriving DecidableEq

/-- A URL in its parts. -/
structure Url where
  /-- The scheme, in lower case. -/
  scheme : String
  /-- The user's name; empty if there is none. -/
  username : String := ""
  /-- The user's password; empty if there is none. -/
  password : String := ""
  /-- The host, as it is written; none if the URL has no place for one. -/
  host : Option String := none
  /-- The port, unless it is the scheme's own. -/
  port : Option Nat := none
  /-- The path. -/
  path : UrlPath := .segments []
  /-- What follows a question mark. -/
  query : Option String := none
  /-- What follows a number sign. -/
  fragment : Option String := none
deriving DecidableEq

namespace Url

/-- The port that a scheme uses when none is given. -/
def defaultPort? (scheme : String) : Option Nat :=
  if scheme = "http" ∨ scheme = "ws" then some 80
  else if scheme = "https" ∨ scheme = "wss" then some 443
  else if scheme = "ftp" then some 21
  else none

/-- Whether URLs of a scheme always have a host and a hierarchy. -/
def isSpecial (scheme : String) : Bool := scheme == "file" || (defaultPort? scheme).isSome

/-- A path as text. -/
def pathText : UrlPath → String
  | .opaquePath text => text
  | .segments names => String.join (names.map ("/" ++ ·))

/-- The user's part of a URL, with the sign that ends it. -/
def userText (u : Url) : String :=
  if u.username.isEmpty && u.password.isEmpty then ""
  else u.username ++ (if u.password.isEmpty then "" else ":" ++ u.password) ++ "@"

/-- A URL as text. A path that begins with two slashes must not look like a host. -/
def text (u : Url) : String :=
  let authority := match u.host with
    | some host =>
      "//" ++ u.userText ++ host ++ (u.port.map fun p => ":" ++ toString p).getD ""
    | none =>
      match u.path with
      | .segments ("" :: _ :: _) => "/."
      | _ => ""
  u.scheme ++ ":" ++ authority ++ pathText u.path ++ (u.query.map ("?" ++ ·)).getD "" ++
    (u.fragment.map ("#" ++ ·)).getD ""

/-! ### Percent-encoding -/

/-- Whether a byte is always encoded: a control or no ASCII. -/
def isControl (b : Nat) : Bool := b < 0x20 || 0x7f ≤ b

/-- Whether a byte is encoded in a fragment. -/
def inFragmentSet (b : Nat) : Bool := isControl b || b ∈ [0x20, 0x22, 0x3c, 0x3e, 0x60]

/-- Whether a byte is encoded in a path. -/
def inPathSet (b : Nat) : Bool := inFragmentSet b || b ∈ [0x23, 0x3f, 0x7b, 0x7d]

/-- Whether a byte is encoded in a user's name or password. -/
def inUserSet (b : Nat) : Bool :=
  inPathSet b || b ∈ [0x2f, 0x3a, 0x3b, 0x3d, 0x40, 0x5b, 0x5c, 0x5d, 0x5e, 0x7c]

/-- Whether a byte is encoded in a query. -/
def inQuerySet (special : Bool) (b : Nat) : Bool :=
  isControl b || b ∈ [0x20, 0x22, 0x23, 0x3c, 0x3e] || (special && b == 0x27)

/-- A hexadecimal digit in upper case. -/
def hexDigit (n : Nat) : Char := (Nat.digitChar n).toUpper

/-- A text with the bytes of a set encoded. -/
def percentEncode (set : Nat → Bool) (s : String) : String :=
  String.ofList <| (Utf8.encode s).flatMap fun b =>
    let n := b.toNat
    if set n then ['%', hexDigit (n / 16), hexDigit (n % 16)] else [Char.ofNat n]

/-- The value of a hexadecimal digit. -/
def hexValue? (b : UInt8) : Option Nat :=
  let n := b.toNat
  if 48 ≤ n && n ≤ 57 then some (n - 48)
  else if 97 ≤ n && n ≤ 102 then some (n - 87)
  else if 65 ≤ n && n ≤ 70 then some (n - 55)
  else none

/-- The bytes of a text with encoded ones decoded; a percent sign that encodes nothing stays. -/
def percentDecode : Bytes → Bytes
  | [] => []
  | [a] => [a]
  | [a, b] => [a, b]
  | a :: b :: c :: rest =>
    match if a = 0x25 then (hexValue? b).bind fun x => (hexValue? c).map (x, ·) else none with
    | some (x, y) => UInt8.ofNat (16 * x + y) :: percentDecode rest
    | none => a :: percentDecode (b :: c :: rest)

end Url

end Deposition
