import Deposition.Export.Basic
import Deposition.Failure
import Deposition.Preferences
import Deposition.Timers

/-!
# Running a job

A job is run from the first connection to the last segment. The configuration is submitted when the
first connection comes up, and only then; what the session wants done is done; and after everything
that happens the status is looked at, because the status is what decides whether the job goes on.

The job ends

* when the session has everything – **completed**, with the height map of the last frame;
* when it no longer runs and has failed – a failure;
* when it no longer runs for any other reason – **cancelled**. A request that is unanswered and a
  connection that is down do not count, because both may pass;
* when the user interrupts it. If the session has nothing to cancel this is at once, and otherwise
  when the server answers, for which it has two seconds.

However the job ends, its exports are released first.
-/

namespace Deposition

/-- What a job is to leave behind. -/
structure JobOptions where
  /-- The cells of the height map along each axis. -/
  bins : Nat
  /-- The file for XYZ text. -/
  xyz : Option String := none
  /-- The file for an archive. -/
  archive : Option String := none
deriving DecidableEq

/-- How a job ends well. -/
inductive JobOutcome
  /-- All segments are there. A last frame with nothing on it has no height map. -/
  | completed (map : Option HeightMap)
  /-- The job was stopped. -/
  | cancelled

/-- A job that is being run. -/
structure Job where
  /-- What to submit. -/
  configuration : Configuration
  /-- What to leave behind. -/
  options : JobOptions
  /-- The session. -/
  session : Session ExportKind
  /-- The pending timers. -/
  timers : Timers := {}
  /-- The exports. -/
  exports : Exports
  /-- Whether the configuration has been submitted. -/
  submitted : Bool := false
  /-- Whether the user has interrupted the job. -/
  interrupted : Bool := false
  /-- When to stop waiting for the server's answer to an interruption. -/
  graceEnds : Option Nat := none
  /-- Whether everything is there. -/
  finished : Bool := false
  /-- The status that was shown last. -/
  shown : JobStatus := .disconnected

namespace Job

/-- What happens to a job. -/
inductive Occurrence
  /-- The connection has something to say. -/
  | event (event : Event)
  /-- The timer that is due runs out. -/
  | timer
  /-- The user interrupts. -/
  | interrupt
  /-- The server has had its time to answer an interruption. -/
  | graceOver
deriving DecidableEq

/-- What one step of a job brings about. -/
structure Step where
  /-- The job afterwards. -/
  job : Job
  /-- What the exports are told. -/
  notices : List (Notice ExportKind) := []
  /-- The messages that are handed to the connection. -/
  sends : List ClientMessage := []
  /-- How the job ends, if it does. -/
  ended : Option (Except Failure JobOutcome) := none

/-- A step that comes after another one. -/
def Step.following (second first : Step) : Step :=
  { second with notices := first.notices ++ second.notices, sends := first.sends ++ second.sends }

/-- How long the server has to answer an interruption, in milliseconds. -/
def grace : Nat := 2000

/-- The job before anything has happened. -/
def start (preferences : Preferences) (configuration : Configuration) (options : JobOptions)
    (files : Files) : Job :=
  { configuration, options, session := { timing := preferences.timing }, exports := { files } }

/-- The message that a command sends, if it sends one. -/
def sent? : Command → Option ClientMessage
  | .send message => some message
  | _ => none

/-- The job after a step of its session, whose exports have heard and whose commands are carried
out. -/
def absorb (j : Job) (now : Nat) (step : Session ExportKind × Effects ExportKind) : Step :=
  let (session, effects) := step
  { job := { j with
      session
      timers := effects.commands.foldl (fun t c => t.obey now c) j.timers
      exports := (j.exports.hearAll effects.notices).1
      finished := j.finished || effects.commands.contains .finished }
    notices := effects.notices
    sends := effects.commands.filterMap sent? }

/-- The exports of the job are released. -/
def release (j : Job) : Step := j.absorb 0 j.session.releaseSinks

/-! ### Submitting -/

/-- Opens the archive, if there is to be one. -/
def openArchive (j : Job) : Except IoError Job :=
  match j.options.archive with
  | none => .ok j
  | some path =>
    match j.exports.openArchive path with
    | .error error => .error error
    | .ok exports => .ok { j with exports, session := j.session.registerSink .archive }

/-- Opens the export to XYZ text, if there is to be one. -/
def openXyz (j : Job) : Except IoError Job :=
  match j.options.xyz with
  | none => .ok j
  | some path =>
    match j.exports.openXyz path with
    | .error error => .error error
    | .ok exports => .ok { j with exports, session := j.session.registerSink .xyz }

/-- Submits the configuration. The exports belong to this submission; if one of them cannot be
opened, nothing is sent. -/
def submit (j : Job) (now : Nat) : Step :=
  match j.session.submit j.configuration with
  | .error rejection => { job := j, ended := some (.error (.rejected rejection)) }
  | .ok (session, effects) =>
    let quiet := j.absorb now (session, { notices := effects.notices })
    match quiet.job.openArchive with
    | .error error => { quiet with ended := some (.error (.io error)) }
    | .ok archived =>
      match archived.openXyz with
      | .error error => { quiet with job := archived, ended := some (.error (.io error)) }
      | .ok opened =>
        (absorb { opened with submitted := true } now
          (opened.session, { commands := effects.commands })).following quiet

/-! ### Going on -/

/-- What the job does about an occurrence. -/
def react (j : Job) (now : Nat) : Occurrence → Step
  | .event event =>
    let first := j.absorb now (j.session.handle event)
    if event = .connected ∧ j.submitted = false then
      (first.job.submit now).following first
    else first
  | .timer =>
    match j.timers.nextDue? with
    | none => { job := j }
    | some (timer, _) =>
      absorb { j with timers := j.timers.cancel timer } now (j.session.handle (.timer timer))
  | .interrupt =>
    if j.interrupted then { job := j }
    else
      match j.session.cancel with
      | .error _ => { job := { j with interrupted := true }, ended := some (.ok .cancelled) }
      | .ok step => absorb { j with interrupted := true, graceEnds := some (now + grace) } now step
  | .graceOver =>
    if j.graceEnds.isSome then { job := j, ended := some (.ok .cancelled) } else { job := j }

/-- How the job ends as it stands, if it does. -/
def verdict (j : Job) : Option (Except Failure JobOutcome) :=
  if j.finished then some (.ok (.completed (j.session.heightMap j.options.bins)))
  else if j.submitted && !j.session.running && j.session.status != .submitting then
    if j.session.status = .failed then some (.error .jobFailed)
    else if j.session.status = .disconnected then none
    else some (.ok .cancelled)
  else none

/-- Whether an end leaves the exports to be released. A job that could not be submitted has none. -/
def releases : Except Failure JobOutcome → Bool
  | .ok _ | .error .jobFailed => true
  | .error _ => false

/-- One step of a job: something happens, the status is shown, and the job may end. -/
def step (j : Job) (now : Nat) (occurrence : Occurrence) : Step :=
  let reaction := j.react now occurrence
  match reaction.ended with
  | some outcome =>
    if releases outcome then
      { reaction.job.release.following reaction with ended := some outcome }
    else reaction
  | none =>
    let job := { reaction.job with shown := reaction.job.session.status }
    match job.verdict with
    | some outcome => { job.release.following reaction with ended := some outcome }
    | none => { reaction with job }

end Job

end Deposition
