import Deposition.Archive.Reader
import Deposition.CommandLine.Arguments
import Deposition.CommandLine.Help
import Deposition.Files.DataDirectory
import Deposition.Rehearsal.Stage

/-!
# The program

The program as a whole: it reads its arguments, its settings file and its environment, does what it
is asked to do, and prints what came of it. Everything outside – files, environment, server – is in
a `Deposition.World`, and what has become of it in a `Deposition.Conclusion`.

The settings are loaded before anything else is done, so that a settings file that makes no sense is
noticed whatever the task.
-/

namespace Deposition

/-- Everything outside the program. -/
structure World where
  /-- The files. -/
  files : Files := {}
  /-- The environment. -/
  environment : Preferences.Environment := fun _ => none
  /-- Where the program keeps its own files. -/
  dataDirectory : DataDirectory
  /-- The server. -/
  server : ServerScript := {}

/-- A request for the catalog. -/
structure CatalogRequest where
  /-- The path that was asked for. -/
  path : String
  /-- The cookie that was sent along. -/
  cookie : Option String
deriving DecidableEq

/-- How the program ends. -/
inductive Exit
  /-- It has done what it was asked to do. -/
  | done
  /-- It has given up. -/
  | failed (failure : Failure)
  /-- It could not tell from its arguments what to do. -/
  | misused
  /-- It was still going on when it was stopped. -/
  | unfinished
deriving DecidableEq

/-- What has become of everything. -/
structure Conclusion where
  /-- How the program ends. -/
  exit : Exit := .done
  /-- What it has printed. -/
  output : String := ""
  /-- What it has asked the server for. -/
  requests : List CatalogRequest := []
  /-- What was said on each socket. -/
  conversations : List Conversation := []
  /-- The files. -/
  files : Files

namespace Program

/-! ### What is printed -/

/-- A length in nanometres. -/
def lengthText (x : Single) : String := x.fixedText 3 ++ " nm"

/-- What is printed about a height map. -/
def mapText (m : HeightMap) : String :=
  s!"bins:              {m.bins} x {m.bins}\n" ++
    "film thickness:    " ++ lengthText m.filmThickness ++ "\n" ++
    "roughness:         " ++ lengthText m.roughness ++ "\n"

/-- The line that is printed for a component. -/
def componentLine (c : Component) : String :=
  Text.padded 6 c.resName ++ " " ++ Text.padded 32 c.name ++ " " ++ c.formula ++ "\n"

/-- What is printed about the places of files and the settings. -/
def pathsText (d : DataDirectory) (p : Preferences) : String :=
  "data dir:   " ++ d.path ++ "\n" ++ "settings:   " ++ d.settingsFile ++ "\n" ++
    "archives:   " ++ d.archives ++ "\n" ++ "reports:    " ++ d.reports ++ "\n" ++
    p.toJson.pretty ++ "\n"

/-! ### Asking for the catalog -/

/-- What came of asking for the catalog. -/
structure Inquiry where
  /-- The requests that have gone out. -/
  requests : List CatalogRequest
  /-- The catalog, or why there is none. -/
  catalog : Except Failure Catalog

/-- Whether a status says that all is well. -/
def isSuccess (status : Nat) : Bool := 200 ≤ status && status < 300

/-- The catalog in an answer of the server. -/
def catalogOf (status : Nat) (body : String) : Except Failure Catalog :=
  if isSuccess status then
    match Catalog.read? body with
    | some catalog => .ok catalog
    | none => .error (.http "the answer is no catalog")
  else .error (.http s!"the server answers with status {status}")

/-- Asks the server at a page for its catalog. A credential that no header can hold keeps the
request from going out. -/
def inquire (server : ServerScript) (page : Url) (token : Option String) : Inquiry :=
  match Endpoint.molecules page with
  | .error failure => ⟨[], .error failure⟩
  | .ok address =>
    let cookie := Endpoint.cookieHeader? token
    if token.isSome && cookie.isNone then ⟨[], .error (.http "the credential fits no header")⟩
    else
      match server.catalog with
      | none => ⟨[], .error (.http "the server cannot be reached")⟩
      | some (status, body) => ⟨[⟨Url.pathText address.path, cookie⟩], catalogOf status body⟩

/-- Whether a catalog has every component of a mixture. -/
def requireAll (c : Catalog) : (mixture : List (String × Nat)) → Except ConfigurationError Unit
  | [] => .ok ()
  | (name, _) :: rest =>
    match c.require name with
    | .error error => .error error
    | .ok _ => requireAll c rest

/-- The configuration that a mixture is put into. A catalog has to have every component of the
mixture; without one the mixture is taken as it is. -/
def foundation (catalog : Except Failure Catalog) (mixture : List (String × Nat)) :
    Except ConfigurationError Configuration :=
  match catalog with
  | .error _ => .ok .initial
  | .ok c => (requireAll c mixture).map fun _ => .ofCatalog c

/-! ### The tasks -/

/-- Writes the report on a completed job and prints what is in it. -/
def report (d : DataDirectory) (job : String) (m : HeightMap) (c : Conclusion) : Conclusion :=
  let path := d.reportFile job
  match c.files.write path (Utf8.encode m.report.pretty) with
  | .error fault => { c with exit := .failed (.io (.file fault)), output := mapText m }
  | .ok files => { c with files, output := mapText m ++ "report:            " ++ path ++ "\n" }

/-- Runs the job of a valid configuration. -/
def runValid (w : World) (p : Preferences) (configuration : Configuration) (xyz : Option String)
    (requests : List CatalogRequest) : Conclusion :=
  let job := configuration.jobName
  match w.dataDirectory.ensure w.files with
  | (files, some fault) => { exit := .failed (.io (.file fault)), requests, files }
  | (files, none) =>
    let archive := if p.saveArchive then some (w.dataDirectory.archiveFile job) else none
    let performance :=
      Performance.rehearse p configuration { bins := p.bins, xyz, archive } files w.server.sockets
    let conclusion : Conclusion :=
      { requests, conversations := performance.conversations, files := performance.files }
    match performance.outcome with
    | none => { conclusion with exit := .unfinished }
    | some (.error failure) => { conclusion with exit := .failed failure }
    | some (.ok .cancelled) => { conclusion with output := "cancelled\n" }
    | some (.ok (.completed none)) => conclusion
    | some (.ok (.completed (some m))) => report w.dataDirectory job m conclusion

/-- Runs a job with a mixture and settings. -/
def run (w : World) (p : Preferences) (mixture : List (String × Nat))
    (settings : List (String × Float)) (xyz : Option String) : Conclusion :=
  match p.page with
  | .error failure => { exit := .failed failure, files := w.files }
  | .ok page =>
    let inquiry := inquire w.server page p.token
    let stop (error : ConfigurationError) : Conclusion :=
      { exit := .failed (.config error), requests := inquiry.requests, files := w.files }
    match foundation inquiry.catalog mixture with
    | .error error => stop error
    | .ok base =>
      let configuration := base.apply mixture settings
      match configuration.validate with
      | .error error => stop error
      | .ok () => runValid w p configuration xyz inquiry.requests

/-- Lists the components that the server offers. -/
def molecules (w : World) (p : Preferences) : Conclusion :=
  match p.page with
  | .error failure => { exit := .failed failure, files := w.files }
  | .ok page =>
    let inquiry := inquire w.server page p.token
    match inquiry.catalog with
    | .error failure => { exit := .failed failure, requests := inquiry.requests, files := w.files }
    | .ok catalog =>
      { output := String.join (catalog.molecules.map componentLine)
        requests := inquiry.requests
        files := w.files }

/-- The height map of the last frame in an archive. -/
def heightMapOf (files : Files) (archive : String) (bins : Nat) : Except Failure HeightMap :=
  match files.openToRead archive with
  | .error fault => .error (.io (.file fault))
  | .ok source =>
    match (Archive.load source : Except ArchiveError (Trajectory Unit)) with
    | .error error => .error (.archive error)
    | .ok trajectory =>
      match trajectory.lastFrame?.bind fun a => HeightMap.ofFrame a.species a.frame bins with
      | none => .error .nothingToAnalyse
      | some m => .ok m

/-- Computes the height map of the last frame in an archive. -/
def analyze (w : World) (archive : String) (bins : Nat) (json : Bool) : Conclusion :=
  match heightMapOf w.files archive bins with
  | .error failure => { exit := .failed failure, files := w.files }
  | .ok m => { output := if json then m.report.pretty ++ "\n" else mapText m, files := w.files }

/-- Does what the program is asked to do. -/
def perform (w : World) (p : Preferences) : Task → Conclusion
  | .run mixture settings _ xyz _ => run w p mixture settings xyz
  | .molecules => molecules w p
  | .analyze archive bins json => analyze w archive (bins.getD p.bins) json
  | .paths => { output := pathsText w.dataDirectory p, files := w.files }

/-! ### The whole -/

/-- The preferences with what the command line says about them. Only a job overrules the number of
bins, and only a job can do without its archive. -/
def overruled (p : Preferences) (i : Invocation) : Preferences :=
  let p := { p with server := i.server.getD p.server, token := i.token.or p.token }
  match i.task with
  | .run _ _ bins _ keepArchive =>
    { p with bins := bins.getD p.bins, saveArchive := p.saveArchive && keepArchive }
  | _ => p

/-- The preferences under which a task is done. -/
def preferences (w : World) (i : Invocation) : Except Failure Preferences :=
  let path := w.dataDirectory.settingsFile
  (Preferences.load path (w.files.readText path) w.environment).map fun (p, _) => overruled p i

/-- The program with these arguments. -/
def execute (w : World) (arguments : List String) : Conclusion :=
  match Invocation.read arguments with
  | .error .misuse => { exit := .misused, files := w.files }
  | .error (.help command) => { output := Help.text command, files := w.files }
  | .error .version => { output := Help.version, files := w.files }
  | .ok invocation =>
    match preferences w invocation with
    | .error failure => { exit := .failed failure, files := w.files }
    | .ok p => perform w p invocation.task

end Program

end Deposition
