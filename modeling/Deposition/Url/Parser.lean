import Deposition.Text.Blank
import Deposition.Url.Host

/-!
# Reading URLs

A URL is read from the left: a scheme, then – with two slashes – a user, a host and a port, then a
path, a query and a fragment. Blanks at the ends and line breaks anywhere are overlooked. For the
schemes that always have a host any number of slashes will do, a backslash is a slash, and the path
is never empty.

Only what follows the scheme depends on it, and the end of each part is the first character that
cannot belong to it, so each part is read by cutting it off.
-/

namespace Deposition

namespace Url

/-- Whether a character is a slash, which for known schemes a backslash is too. -/
def isSlash (special : Bool) (c : Char) : Bool := c == '/' || (special && c == '\\')

/-- Whether a character ends the user, host and port of a URL. -/
def endsAuthority (special : Bool) (c : Char) : Bool := isSlash special c || c == '?' || c == '#'

/-- Whether a character can be in a scheme behind its first. -/
def isSchemeChar (c : Char) : Bool :=
  Text.isDigit c || c.isAlpha || c == '+' || c == '-' || c == '.'

/-- The characters of a text that count: none that are blank at its ends, and no tabs or line
breaks. -/
def clean (s : String) : List Char :=
  let blank (c : Char) : Bool := c.toNat ≤ 0x20
  let cs := ((s.toList.dropWhile blank).reverse.dropWhile blank).reverse
  cs.filter fun c => !(c == '\t' || c == '\n' || c == '\r')

/-- The scheme of a URL and what follows its colon. -/
def scheme? (cs : List Char) : Option (String × List Char) :=
  match cs with
  | [] => none
  | first :: _ =>
    if !first.isAlpha then none
    else
      match cs.dropWhile isSchemeChar with
      | ':' :: rest => some (String.ofList ((cs.takeWhile isSchemeChar).map Char.toLower), rest)
      | _ => none

/-! ### Query and fragment -/

/-- The query and the fragment that follow a path. -/
def tail (special : Bool) (cs : List Char) : Option String × Option String :=
  let fragment (cs : List Char) : Option String :=
    match cs with
    | [] => none
    | _ :: rest => some (percentEncode inFragmentSet (String.ofList rest))
  match cs with
  | '?' :: rest =>
    (some (percentEncode (inQuerySet special) (String.ofList (rest.takeWhile (· != '#')))),
      fragment (rest.dropWhile (· != '#')))
  | cs => (none, fragment cs)

/-! ### Paths -/

/-- The parts of a path between slashes. -/
def pathParts (special : Bool) (cs : List Char) : List (List Char) :=
  match cs with
  | [] => [[]]
  | c :: rest =>
    if isSlash special c then [] :: pathParts special rest
    else
      match pathParts special rest with
      | part :: others => (c :: part) :: others
      | [] => [[c]]

/-- Whether a part of a path is a dot, which may be encoded. -/
def isDot (part : String) : Bool := part == "." || part.toLower == "%2e"

/-- Whether a part of a path is two dots, either of which may be encoded. -/
def isDoubleDot (part : String) : Bool :=
  ["..", ".%2e", "%2e.", "%2e%2e"].contains part.toLower

/-- The names in a path: a dot is the place itself, two dots lead back, and a path that ends in
either ends in a slash. -/
def walk (done : List String) : List String → List String
  | [] => done
  | [part] =>
    if isDoubleDot part then done.dropLast ++ [""]
    else if isDot part then done ++ [""]
    else done ++ [part]
  | part :: rest =>
    if isDoubleDot part then walk done.dropLast rest
    else if isDot part then walk done rest
    else walk (done ++ [part]) rest

/-- The names in a path, from behind its first slash. -/
def names (special : Bool) (cs : List Char) : List String :=
  walk [] ((pathParts special cs).map fun part => percentEncode inPathSet (String.ofList part))

/-- The names in a path. For known schemes a path without a slash has one nevertheless; for others
an empty path has no names. -/
def pathNames (special : Bool) (cs : List Char) : List String :=
  match cs with
  | [] => if special then [""] else []
  | c :: rest => if isSlash special c then names special rest else names special (c :: rest)

/-! ### User, host and port -/

/-- The parts of an authority before and behind its last at sign. -/
def cutUser (cs : List Char) : Option (List Char) × List Char :=
  if cs.contains '@' then
    let reversed := cs.reverse
    (some ((reversed.dropWhile (· != '@')).drop 1).reverse, (reversed.takeWhile (· != '@')).reverse)
  else (none, cs)

/-- A host and what follows it; inside brackets a colon does not end it. -/
def cutHost (inside : Bool) : List Char → List Char × List Char
  | [] => ([], [])
  | c :: rest =>
    if c == ':' && !inside then ([], c :: rest)
    else
      let (host, after) :=
        cutHost (if c == '[' then true else if c == ']' then false else inside) rest
      (c :: host, after)

/-- The port behind a colon, unless it is the scheme's own. -/
def portOf (scheme : String) (cs : List Char) : Except UrlError (Option Nat) :=
  if !cs.all Text.isDigit then .error .badPort
  else if 65535 < Text.digitsValue cs then .error .badPort
  else if cs.isEmpty || defaultPort? scheme == some (Text.digitsValue cs) then .ok none
  else .ok (some (Text.digitsValue cs))

/-- Reads the user, the host and the port of a URL; `more` says whether anything follows them. -/
def authority (scheme : String) (cs : List Char) (more : Bool) : Except UrlError Url := do
  let special := isSpecial scheme
  let (user, rest) := cutUser cs
  if user == some [] && rest.isEmpty && more then throw .emptyHost
  let (host, after) := cutHost false rest
  if host.isEmpty && (special || !after.isEmpty) then throw .emptyHost
  let host ←
    if special then Host.ofSpecial (String.ofList host) else Host.ofOther (String.ofList host)
  let port ← portOf scheme (after.drop 1)
  let user := user.getD []
  let encode (cs : List Char) : String := percentEncode inUserSet (String.ofList cs)
  return {
    scheme, port, host := some host
    username := encode (user.takeWhile (· != ':'))
    password := encode ((user.dropWhile (· != ':')).drop 1) }

/-! ### Files -/

/-- Whether a part of a path is the letter of a drive. -/
def isDrive : List Char → Bool
  | [letter, mark] => letter.isAlpha && (mark == ':' || mark == '|')
  | _ => false

/-- The names in the path of a file. The letter of a drive has a colon, and two dots do not lead
back beyond it. Without a drive, empty names in front drop out. -/
def fileNames (cs : List Char) : List String :=
  let inside := match cs with
    | [] => []
    | c :: rest => if isSlash true c then rest else c :: rest
  match pathParts true inside with
  | first :: rest =>
    if isDrive first then
      String.ofList [first.headD 'c', ':'] :: walk [] (rest.map fun part =>
        percentEncode inPathSet (String.ofList part))
    else
      let trimmed := (names true inside).dropWhile (·.isEmpty)
      if trimmed.isEmpty then [""] else trimmed
  | [] => [""]

/-- Reads what follows the scheme of a file. -/
def file (cs : List Char) : Except UrlError Url := do
  let endsPath (c : Char) : Bool := c == '?' || c == '#'
  let hostAndPath : List Char × List Char :=
    match cs with
    | a :: b :: rest =>
      if isSlash true a && isSlash true b then
        let host := rest.takeWhile fun c => !endsAuthority true c
        if isDrive host then ([], rest) else (host, rest.dropWhile fun c => !endsAuthority true c)
      else ([], cs)
    | cs => ([], cs)
  let (host, rest) := hostAndPath
  let host ← if host.isEmpty then pure "" else Host.ofSpecial (String.ofList host)
  let (query, fragment) := tail true (rest.dropWhile fun c => !endsPath c)
  return {
    scheme := "file", query, fragment
    host := some (if host == "localhost" then "" else host)
    path := .segments (fileNames (rest.takeWhile fun c => !endsPath c)) }

/-! ### Whole URLs -/

/-- Reads what follows two slashes. -/
def withAuthority (scheme : String) (cs : List Char) : Except UrlError Url := do
  let special := isSpecial scheme
  let rest := cs.dropWhile fun c => !endsAuthority special c
  let url ← authority scheme (cs.takeWhile fun c => !endsAuthority special c) !rest.isEmpty
  let endsPath (c : Char) : Bool := c == '?' || c == '#'
  let (query, fragment) := tail special (rest.dropWhile fun c => !endsPath c)
  return { url with
    query, fragment
    path := .segments (pathNames special (rest.takeWhile fun c => !endsPath c)) }

/-- Reads what follows the scheme when there is no authority. -/
def withoutAuthority (scheme : String) (cs : List Char) : Url :=
  let endsPath (c : Char) : Bool := c == '?' || c == '#'
  let path := cs.takeWhile fun c => !endsPath c
  let (query, fragment) := tail false (cs.dropWhile fun c => !endsPath c)
  { scheme, query, fragment
    path :=
      match path with
      | '/' :: rest => .segments (names false rest)
      | path => .opaquePath (percentEncode isControl (String.ofList path)) }

/-- Reads a URL. -/
def parse (s : String) : Except UrlError Url :=
  match scheme? (clean s) with
  | none => .error .relativeWithoutBase
  | some (scheme, rest) =>
    if scheme = "file" then file rest
    else if isSpecial scheme then withAuthority scheme (rest.dropWhile (isSlash true))
    else
      match rest with
      | '/' :: '/' :: rest => withAuthority scheme rest
      | rest => .ok (withoutAuthority scheme rest)

/-! ### References -/

/-- The place that a name beside the end of a path stands for. -/
def sibling (u : Url) (name : String) : Except UrlError Url :=
  match u.path with
  | .opaquePath _ => .error .relativeToOpaque
  | .segments names =>
    .ok { u with path := .segments (names.dropLast ++ [name]), query := none, fragment := none }

/-- The place that a name at the root stands for. Files keep their drive. -/
def atRoot (u : Url) (name : String) : Except UrlError Url :=
  match u.path with
  | .opaquePath _ => .error .relativeToOpaque
  | .segments names =>
    let drive := if u.scheme = "file" then names.take 1 |>.filter fun n => isDrive n.toList else []
    .ok { u with path := .segments (drive ++ [name]), query := none, fragment := none }

end Url

end Deposition
