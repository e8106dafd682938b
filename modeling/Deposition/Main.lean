import Deposition.CommandLine.Program

/-!
# The command line

Starts the program on the machine at hand. What it does is decided by `Deposition.Program.execute`
alone; here its world is read beforehand, and what it leaves behind is written out afterwards.

## Where the program ends

There is no network here. The server is one that nobody can reach, so that a job never gets further
than to be set up; everything that needs files only is done in full.
-/

namespace Deposition

/-- The environment, as far as the program looks at it. -/
def readEnvironment : IO Preferences.Environment := do
  let mut known : List (String × String) := []
  for name in "HOME" :: "XDG_DATA_HOME" :: Preferences.variableNames do
    if let some value ← IO.getEnv name then
      known := (name, value) :: known
  let seen := known
  return fun name => seen.lookup name

/-- Adds what is at a path to a tree of files, if anything is there. -/
def fetch (files : Files) (path : String) : IO Files := do
  if ← ((← IO.currentDir) / path).isDir then
    return (files.makeDirectories path).1
  let .ok contents ← (IO.FS.readBinFile path).toBaseIO | return files
  let (files, _) := files.makeDirectories ((Path.parent? path).getD "")
  return (files.write path contents.toList).toOption.getD files

/-- The files that the program reads when it is started with these arguments. -/
def readFiles (directory : DataDirectory) (arguments : List String) : IO Files := do
  let here := (← IO.currentDir).toString
  let (files, _) := Files.makeDirectories {} here
  let files ← fetch { files with workingDirectory := Path.names here } directory.settingsFile
  match Invocation.read arguments with
  | .ok { task := .analyze archive _ _, .. } => fetch files archive
  | _ => return files

/-- Writes out what is in one tree of files and not in another. -/
def writeFiles (before after : Files) : IO Unit := do
  for (place, entry) in after.entries do
    let path := "/" ++ String.intercalate "/" place
    if before.find? place != some entry then
      match entry with
      | .directory => IO.FS.createDirAll path
      | .file contents => IO.FS.writeBinFile path ⟨contents.toArray⟩

/-- Runs the program and answers with its exit code. -/
def launch (arguments : List String) : IO UInt32 := do
  let environment ← readEnvironment
  let some dataDirectory := DataDirectory.ofEnvironment? environment
    | IO.eprintln "Error: could not determine data directory"
      return 1
  let files ← readFiles dataDirectory arguments
  let conclusion := Program.execute { files, environment, dataDirectory } arguments
  writeFiles files conclusion.files
  IO.print conclusion.output
  match conclusion.exit with
  | .done => return 0
  | .failed failure => do
    IO.eprintln ("Error: " ++ failure.message)
    return 1
  | .misused => do
    IO.eprint (Help.text none)
    return 2
  | .unfinished => do
    IO.eprintln "Error: the server cannot be reached"
    return 1

end Deposition

/-- The program. -/
def main (arguments : List String) : IO UInt32 := Deposition.launch arguments
