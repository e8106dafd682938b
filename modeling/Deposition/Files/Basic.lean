import Deposition.Bytes.Source
import Deposition.Files.Path

/-!
# Files and directories

The files that the client sees, as far as it can tell: a tree of directories with files in it. A
path is followed name by name. Every name but the last has to be that of a directory, and what the
last one has to be depends on what is done with it.

A place in the tree is the list of the names that lead to it from the root.
-/

namespace Deposition

/-- What is at a place. -/
inductive FileEntry
  /-- A directory. -/
  | directory
  /-- A file with its contents. -/
  | file (contents : Bytes)
deriving DecidableEq

/-- A tree of files. -/
structure Files where
  /-- What is at every place except the root, in the order in which it came there. -/
  entries : List (List String × FileEntry) := []
  /-- The directory in which relative paths start. -/
  workingDirectory : List String := []
deriving DecidableEq

namespace Files

/-- What is at a place, if anything is. -/
def find? (f : Files) (place : List String) : Option FileEntry :=
  if place.isEmpty then some .directory
  else (f.entries.find? fun (p, _) => p == place).map Prod.snd

/-- The entries with this one at its place. -/
def withEntry (place : List String) (entry : FileEntry) :
    List (List String × FileEntry) → List (List String × FileEntry)
  | [] => [(place, entry)]
  | (p, e) :: rest =>
    if p = place then (p, entry) :: rest else (p, e) :: withEntry place entry rest

/-- The tree with something at a place. -/
def put (f : Files) (place : List String) (entry : FileEntry) : Files :=
  { f with entries := withEntry place entry f.entries }

/-! ### Following a path -/

/-- The longest name that a file can have, in bytes. -/
def longestName : Nat := 255

/-- Follows one name from a place. -/
def enter (f : Files) (place : List String) (name : String) : Except FileFault (List String) :=
  match f.find? place with
  | none => .error .notFound
  | some (.file _) => .error .notADirectory
  | some .directory =>
    if longestName < name.utf8ByteSize then .error .nameTooLong
    else if name = "." then .ok place
    else if name = ".." then .ok place.dropLast
    else .ok (place ++ [name])

/-- Follows names from a place. -/
def follow (f : Files) (place : List String) : List String → Except FileFault (List String)
  | [] => .ok place
  | name :: names =>
    match f.enter place name with
    | .ok place => f.follow place names
    | .error fault => .error fault

/-- The place that a path leads to, where there may be nothing. -/
def locate (f : Files) (path : String) : Except FileFault (List String) :=
  if path.toList.contains '\x00' then .error .badPath
  else if path.isEmpty then .error .notFound
  else f.follow (if Path.isAbsolute path then [] else f.workingDirectory) (Path.names path)

/-- Whether a path ends in a way that only a directory can have. -/
def endsAsDirectory (path : String) : Bool := path.endsWith "/"

/-- Whether there is a directory at the end of a path. -/
def isDirectory (f : Files) (path : String) : Bool :=
  match f.locate path with
  | .ok place => f.find? place == some .directory
  | .error _ => false

/-! ### Reading and writing -/

/-- Opens a file to be read. A directory can be opened as well, and is found out when it is read. -/
def openToRead (f : Files) (path : String) : Except FileFault Source :=
  match f.locate path with
  | .error fault => .error fault
  | .ok place =>
    match f.find? place with
    | none => .error .notFound
    | some .directory => .ok [.fault (.file .isADirectory)]
    | some (.file contents) =>
      if endsAsDirectory path then .error .notADirectory else .ok (.ofBytes contents)

/-- The text in a file. -/
def readText (f : Files) (path : String) : Except FileFault String :=
  match f.openToRead path with
  | .error fault => .error fault
  | .ok [.data contents] =>
    match Utf8.decode? contents with
    | some text => .ok text
    | none => .error .notText
  | .ok _ => .error .isADirectory

/-- Creates an empty file, in place of one that is there. -/
def create (f : Files) (path : String) : Except FileFault (List String × Files) :=
  match f.locate path with
  | .error fault => .error fault
  | .ok place =>
    if endsAsDirectory path then .error .isADirectory
    else
      match f.find? place with
      | some .directory => .error .isADirectory
      | _ => .ok (place, f.put place (.file []))

/-- Writes bytes into the file at a place from an offset on, over what is there. -/
def writeAt (f : Files) (place : List String) (offset : Nat) (bytes : Bytes) : Files :=
  match f.find? place with
  | some (.file contents) =>
    let before := contents.take offset ++ List.replicate (offset - contents.length) 0
    f.put place (.file (before ++ bytes ++ contents.drop (offset + bytes.length)))
  | _ => f

/-- Writes a file as a whole. -/
def write (f : Files) (path : String) (bytes : Bytes) : Except FileFault Files :=
  match f.create path with
  | .error fault => .error fault
  | .ok (place, f) => .ok (f.put place (.file bytes))

/-! ### Directories -/

/-- Makes one directory, whose parent is there. -/
def makeDirectory (f : Files) (path : String) : Except FileFault Files :=
  match f.locate path with
  | .error fault => .error fault
  | .ok place =>
    match f.find? place with
    | some _ => .error .alreadyExists
    | none => .ok (f.put place .directory)

/-- The tree if there is a directory at the end of a path, and a fault otherwise. -/
def orFault (f : Files) (path : String) (fault : FileFault) : Files × Option FileFault :=
  (f, if f.isDirectory path then none else some fault)

/-- Makes a directory and, if they are missing, those that it is in. It is no fault if the
directory is there already, and what is made before a fault stays. Every step goes to a shorter
path, and `fuel` is the number of steps. -/
def makeDirectoriesWithin : (fuel : Nat) → Files → (path : String) → Files × Option FileFault
  | 0, f, _ => (f, none)
  | fuel + 1, f, path =>
    if path.isEmpty then (f, none)
    else
      match f.makeDirectory path with
      | .ok f => (f, none)
      | .error .notFound =>
        match Path.parent? path with
        | none => (f, some .notFound)
        | some parent =>
          match makeDirectoriesWithin fuel f parent with
          | (f, some fault) => (f, some fault)
          | (f, none) =>
            match f.makeDirectory path with
            | .ok f => (f, none)
            | .error fault => f.orFault path fault
      | .error fault => f.orFault path fault

/-- Makes a directory and those that it is in. -/
def makeDirectories (f : Files) (path : String) : Files × Option FileFault :=
  makeDirectoriesWithin (path.length + 1) f path

/-! ### Looking around -/

/-- Whether one place comes before another when directories are walked and the names in each are
taken in order. -/
def walksBefore : List String → List String → Bool
  | [], _ => true
  | _ :: _, [] => false
  | a :: as, b :: bs => if a = b then walksBefore as bs else decide (a < b)

/-- The files below a place, in the order of a walk, each with its path from there. -/
def below (f : Files) (place : List String) : List (String × Bytes) :=
  let files := f.entries.filterMap fun (p, e) =>
    match e with
    | .file contents =>
      if place.isPrefixOf p then some (p.drop place.length, contents) else none
    | .directory => none
  (files.mergeSort fun a b => walksBefore a.1 b.1).map fun (p, contents) =>
    (String.intercalate "/" p, contents)

end Files

end Deposition
