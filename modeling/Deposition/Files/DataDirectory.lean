import Deposition.Files.Basic

/-!
# The data directory

Everything that the client keeps is below one directory: the settings file, the archives of the jobs
and the reports on them. Archives and reports are named for their job.
-/

namespace Deposition

/-- Where the client keeps its files. -/
structure DataDirectory where
  /-- The path of the directory. -/
  path : String
deriving DecidableEq

namespace DataDirectory

/-- Where the environment would have the directory: below the directory for data, if that is given
by an absolute path, and otherwise at its usual place below the home directory. -/
def ofEnvironment? (env : String → Option String) : Option DataDirectory :=
  let home := ((env "HOME").filter (!·.isEmpty)).map fun home => Path.join home ".local/share"
  (((env "XDG_DATA_HOME").filter Path.isAbsolute).or home).map fun base =>
    ⟨Path.join base "depoview"⟩

/-- The settings file. -/
def settingsFile (d : DataDirectory) : String := Path.join d.path "settings.json"

/-- The directory of the archives. -/
def archives (d : DataDirectory) : String := Path.join d.path "archives"

/-- The directory of the reports. -/
def reports (d : DataDirectory) : String := Path.join d.path "reports"

/-- The archive of a job. -/
def archiveFile (d : DataDirectory) (job : String) : String :=
  Path.join d.archives (job ++ ".dtrj")

/-- The report on a job. -/
def reportFile (d : DataDirectory) (job : String) : String :=
  Path.join d.reports (job ++ ".heightmap.json")

/-- Makes the directories of the archives and of the reports. -/
def ensure (d : DataDirectory) (f : Files) : Files × Option FileFault :=
  match f.makeDirectories d.archives with
  | (f, some fault) => (f, some fault)
  | (f, none) => f.makeDirectories d.reports

end DataDirectory

end Deposition
