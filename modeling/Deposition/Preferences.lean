import Deposition.Endpoint
import Deposition.Json.Record

/-!
# The user's preferences

What the client needs to know beyond the job itself: where the server is, who the user is, how
patient to be, how fine a height map to make and whether to keep an archive. There is a value for
everything. A settings file may say otherwise, variables of the environment overrule the file, and
flags on the command line overrule both.

A variable whose value makes no sense is passed over with a warning, since it may be meant for
something else; a file that makes no sense is an error.
-/

namespace Deposition

/-- The user's preferences. -/
structure Preferences where
  /-- The address of the server's page. -/
  server : String := "http://127.0.0.1:8080/"
  /-- The credential that is sent along. -/
  token : Option String := none
  /-- How often to look whether the connection is down, in milliseconds. -/
  reconnectMs : Nat := 5000
  /-- The delay before a segment is asked for, in milliseconds. -/
  debounceMs : Nat := 250
  /-- The time after which a segment is asked for again, in milliseconds. -/
  retryMs : Nat := 10000
  /-- The cells of a height map along each axis. -/
  bins : Nat := 10
  /-- Whether to keep an archive. -/
  saveArchive : Bool := true
deriving DecidableEq

namespace Preferences

/-! ### The settings file -/

/-- The names of the fields in a settings file. -/
def fieldNames : List String :=
  ["server", "token", "reconnect_interval_ms", "debounce_ms", "retry_interval_ms", "bins",
    "save_archive"]

/-- The JSON form of preferences. -/
def toJson (p : Preferences) : Json :=
  .record [("server", .text p.server), ("token", .optional .text p.token),
    ("reconnect_interval_ms", .natural p.reconnectMs), ("debounce_ms", .natural p.debounceMs),
    ("retry_interval_ms", .natural p.retryMs), ("bins", .natural p.bins),
    ("save_archive", .bool p.saveArchive)]

/-- Reads preferences; a field that is missing has its usual value. -/
def ofJson? (j : Json) : Option Preferences := do
  let usual : Preferences := {}
  let word := Json.natural? Json.wordLimit
  match ← j.fields? fieldNames with
  | [server, token, reconnect, debounce, retry, bins, saveArchive] =>
    return {
      server := ← Json.orDefault? usual.server Json.text? server
      token := ← Json.orDefault? usual.token (Json.nullable? Json.text?) token
      reconnectMs := ← Json.orDefault? usual.reconnectMs word reconnect
      debounceMs := ← Json.orDefault? usual.debounceMs word debounce
      retryMs := ← Json.orDefault? usual.retryMs word retry
      bins := ← Json.orDefault? usual.bins word bins
      saveArchive := ← Json.orDefault? usual.saveArchive Json.bool? saveArchive }
  | _ => none

/-- Reads the text of a settings file. -/
def read? (text : String) : Option Preferences := (Json.read? text).bind ofJson?

/-- The preferences that a settings file gives, from what came of reading it: a file that is not
there gives the usual ones. -/
def ofFile (path : String) : Except FileFault String → Except Failure Preferences
  | .error .notFound => .ok {}
  | .error fault => .error (.io (.file fault))
  | .ok text =>
    match read? text with
    | some p => .ok p
    | none => .error (.settings path "not a settings record")

/-! ### The environment -/

/-- The variables of the environment that have a value. -/
abbrev Environment := String → Option String

/-- The variables that have a say. -/
def variableNames : List String :=
  ["DEPOVIEW_SERVER", "DEPOVIEW_TOKEN", "DEPOVIEW_BINS", "DEPOVIEW_RETRY_MS"]

/-- Overrules the server with a value that is not blank. -/
def withServer (p : Preferences) (value : String) : Preferences :=
  if (Text.trim value).isEmpty then p else { p with server := Text.trim value }

/-- Overrules the credential; a blank value means that there is none. -/
def withToken (p : Preferences) (value : String) : Preferences :=
  { p with token := if (Text.trim value).isEmpty then none else some (Text.trim value) }

/-- A whole number above zero that fits 64 bits, with blanks around it. -/
def positive? (value : String) : Option Nat :=
  (Text.wholeNumber? Json.wordLimit (Text.trim value)).filter (0 < ·)

/-- Overrules a number, or warns of a value that is none. -/
def withNumber (p : Preferences) (set : Nat → Preferences) (name value : String) :
    Preferences × List Log.Entry :=
  match positive? value with
  | some n => (set n, [])
  | none => (p, [Log.warn ("Ignoring invalid " ++ name ++ ": " ++ value)])

/-- A step for a variable, which does nothing if the variable has no value. -/
def overruledBy (env : Environment) (name : String)
    (step : Preferences → String → Preferences × List Log.Entry) (p : Preferences) :
    Preferences × List Log.Entry :=
  match env name with
  | none => (p, [])
  | some value => step p value

/-- The preferences as the environment would have them. -/
def underEnvironment (p : Preferences) (env : Environment) : Preferences × List Log.Entry :=
  let (p, _) := overruledBy env "DEPOVIEW_SERVER" (fun p v => (p.withServer v, [])) p
  let (p, _) := overruledBy env "DEPOVIEW_TOKEN" (fun p v => (p.withToken v, [])) p
  let (p, bins) := overruledBy env "DEPOVIEW_BINS"
    (fun p v => p.withNumber (fun n => { p with bins := n }) "DEPOVIEW_BINS" v) p
  let (p, retry) := overruledBy env "DEPOVIEW_RETRY_MS"
    (fun p v => p.withNumber (fun n => { p with retryMs := n }) "DEPOVIEW_RETRY_MS" v) p
  (p, bins ++ retry)

/-- The preferences that a settings file and the environment give together. -/
def load (path : String) (file : Except FileFault String) (env : Environment) :
    Except Failure (Preferences × List Log.Entry) := do
  return (← ofFile path file).underEnvironment env

/-! ### What follows from preferences -/

/-- The address of the server's page. -/
def page (p : Preferences) : Except Failure Url := Endpoint.page p.server

/-- The timers of a session. A retry takes some time at least. -/
def timing (p : Preferences) : Timing := ⟨p.debounceMs, max p.retryMs 1⟩

/-- The time between two looks at the connection, which is not zero. -/
def reconnectInterval (p : Preferences) : Nat := max p.reconnectMs 1

theorem retry_timing_pos (p : Preferences) : 0 < p.timing.retry := by
  simp only [timing]
  omega

theorem reconnectInterval_pos (p : Preferences) : 0 < p.reconnectInterval := by
  simp only [reconnectInterval]
  omega

end Preferences

end Deposition
