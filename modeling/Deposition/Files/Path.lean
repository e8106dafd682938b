import Deposition.Text.Utf8

/-!
# Paths

A path is text. Slashes divide it into names, a slash in front makes it start at the root, and two
names are special: a single dot is the place itself and two dots lead back. Nothing is simplified
along the way, because what is written is what the user is shown.
-/

namespace Deposition

namespace Path

/-- Whether a path starts at the root. -/
def isAbsolute (path : String) : Bool := path.startsWith "/"

/-- One path below another. An absolute one stands for itself, and no slash is doubled. -/
def join (base path : String) : String :=
  if isAbsolute path || base.isEmpty then path
  else if base.endsWith "/" then base ++ path
  else base ++ "/" ++ path

/-- The parts of a text between slashes. -/
def cut : List Char → List (List Char)
  | [] => [[]]
  | '/' :: rest => [] :: cut rest
  | c :: rest =>
    match cut rest with
    | name :: names => (c :: name) :: names
    | [] => [[c]]

/-- The names in a path, dots included. -/
def names (path : String) : List String :=
  ((cut path.toList).filter (!·.isEmpty)).map String.ofList

/-- The path of the directory that something is in; none for the root and for no path at all. A dot
in the middle says nothing and is left out. -/
def parent? (path : String) : Option String :=
  let inside := names path
  let kept := inside.take 1 ++ (inside.drop 1).filter (· != ".")
  if kept.isEmpty then none
  else some ((if isAbsolute path then "/" else "") ++ String.intercalate "/" kept.dropLast)

end Path

end Deposition
