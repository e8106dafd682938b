import Deposition.Export.Archive
import Deposition.Export.Xyz
import Deposition.Files.Basic

/-!
# The exports of a job

A job can be followed by two exports, an archive and XYZ text, each into a file of its own. An
export fills a medium, and its file gets what is new in the medium whenever the export has heard
something, and at the latest when it is closed. What is in a file before its export is opened is
lost.
-/

namespace Deposition

/-- The exports that a job can have. -/
inductive ExportKind
  /-- A trajectory archive. -/
  | archive
  /-- XYZ text. -/
  | xyz
deriving DecidableEq

/-- An export with its file. -/
structure FileExport (α : Type) where
  /-- The export. -/
  export_ : α
  /-- Where the file is. -/
  place : List String
  /-- How many bytes of the medium are in the file. -/
  saved : Nat := 0

namespace FileExport

variable {α : Type}

/-- Puts what is new in a medium into the file. -/
def save (x : FileExport α) (medium : Medium) (f : Files) : FileExport α × Files :=
  ({ x with saved := medium.written.length },
    f.writeAt x.place x.saved (medium.written.drop x.saved))

end FileExport

/-- The exports of a job, and the files that they go to. -/
structure Exports where
  /-- The files. -/
  files : Files
  /-- The archive, if there is one. -/
  archive : Option (FileExport ArchiveExport) := none
  /-- The XYZ text, if there is one. -/
  xyz : Option (FileExport XyzExport) := none

namespace Exports

/-- Opens an archive. -/
def openArchive (e : Exports) (path : String) : Except IoError Exports :=
  match e.files.create path with
  | .error fault => .error (.file fault)
  | .ok (place, files) =>
    match ArchiveExport.start {} with
    | .error error => .error error
    | .ok export_ => .ok { e with files, archive := some { export_, place } }

/-- Opens an export to XYZ text. -/
def openXyz (e : Exports) (path : String) : Except IoError Exports :=
  match e.files.create path with
  | .error fault => .error (.file fault)
  | .ok (place, files) => .ok { e with files, xyz := some { export_ := { medium := {} }, place } }

/-- An export hears what the trajectory has to say. -/
def hear (e : Exports) (notice : Notice ExportKind) : Exports × List Log.Entry :=
  match notice.sink with
  | .archive =>
    match e.archive with
    | none => (e, [])
    | some x =>
      let (export_, log) := x.export_.hear notice.call
      let (x, files) := FileExport.save { x with export_ } export_.medium e.files
      ({ e with files, archive := some x }, log)
  | .xyz =>
    match e.xyz with
    | none => (e, [])
    | some x =>
      let (export_, log) := x.export_.hear notice.call
      let (x, files) := FileExport.save { x with export_ } export_.medium e.files
      ({ e with files, xyz := some x }, log)

/-- The exports hear several things in order. -/
def hearAll (e : Exports) (notices : List (Notice ExportKind)) : Exports × List Log.Entry :=
  notices.foldl (fun (e, log) notice => let (e, more) := e.hear notice; (e, log ++ more)) (e, [])

/-- The files when the exports are closed; whatever a medium still holds goes into its file. -/
def close (e : Exports) : Files :=
  let files := match e.archive with
    | some x => (x.save x.export_.medium e.files).2
    | none => e.files
  match e.xyz with
  | some x => (x.save x.export_.medium files).2
  | none => files

end Exports

end Deposition
