import Deposition.Configuration
import Deposition.Flow
import Deposition.HeightMap
import Deposition.Log
import Deposition.Status
import Deposition.Trajectory

/-!
# Sessions

A session is one client's view of a deposition job, from the submission to the last segment. It
neither waits nor talks to anyone. It takes one event at a time – the connection comes and goes, a
message arrives, a timer runs out, the user submits or cancels – and says what has to be done about
it, as a list of `Deposition.Command`s.

Two flags carry most of the protocol. While a *request is pending*, a new submission is refused;
whatever the server says next ends this. While a request for a segment is *armed*, it waits for its
short delay to run out, so that a burst of announcements causes one request.

A job survives the loss of the connection: nothing about the download changes, and the retry timer
asks again for the segment that was in flight.
-/

namespace Deposition

/-- The timers of a session. At most one of each is pending. -/
inductive Timer
  /-- The delay before a segment is asked for. -/
  | debounce
  /-- The time after which a segment is asked for again. -/
  | retry
deriving DecidableEq

/-- How long the timers run, in milliseconds. -/
structure Timing where
  /-- The delay before a segment is asked for. -/
  debounce : Nat := 250
  /-- The time after which a segment is asked for again. -/
  retry : Nat := 10000
deriving DecidableEq

/-- What has to be done for a session. -/
inductive Command
  /-- Send this message. -/
  | send (message : ClientMessage)
  /-- Start a timer, in place of a pending one. -/
  | schedule (timer : Timer) (after : Nat)
  /-- Stop a timer. -/
  | cancelTimer (timer : Timer)
  /-- The job is done and its last frame is there to be analysed. -/
  | finished
deriving DecidableEq

/-- What happens to a session. -/
inductive Event
  /-- There is a connection. -/
  | connected
  /-- The connection is lost. -/
  | disconnected
  /-- A text message arrives. -/
  | text (text : String)
  /-- A binary message arrives. -/
  | binary (buffer : Bytes)
  /-- A timer runs out. -/
  | timer (timer : Timer)
deriving DecidableEq

/-- Why a submission or a cancellation is refused. -/
inductive Rejection
  /-- There is no connection. -/
  | disconnected
  /-- An earlier request is unanswered. -/
  | pending
  /-- A job is running. -/
  | alreadyRunning
  /-- No job is running. -/
  | notRunning
  /-- The configuration is not valid. -/
  | invalid (error : ConfigurationError)
deriving DecidableEq

/-- What is said about a refusal. -/
def Rejection.message : Rejection → String
  | .disconnected => "not connected to the server"
  | .pending => "waiting for the server to answer a previous request"
  | .alreadyRunning => "a job is already running"
  | .notRunning => "no job is running"
  | .invalid error => error.message

/-- Everything that a step of a session brings about. -/
structure Effects (σ : Type) where
  /-- What has to be done. -/
  commands : List Command := []
  /-- What the sinks are told. -/
  notices : List (Notice σ) := []
  /-- What is noted. -/
  log : List Log.Entry := []

/-- One client's view of a job. -/
structure Session (σ : Type) where
  /-- How long the timers run. -/
  timing : Timing := {}
  /-- Whether there is a connection. -/
  connected : Bool := false
  /-- Whether a request to start or stop a job is unanswered. -/
  pending : Bool := false
  /-- Whether a job is running. -/
  running : Bool := false
  /-- Whether the job has failed. -/
  failed : Bool := false
  /-- Whether the job is done. -/
  analysisReady : Bool := false
  /-- Whether a request waits for its delay to run out. -/
  armed : Bool := false
  /-- The last frame of a job that is done. -/
  analysis : Option AnalysisFrame := none
  /-- The download. -/
  flow : Flow := {}
  /-- The frames so far. -/
  trajectory : Trajectory σ := {}

namespace Effects

variable {σ : Type}

/-- First one thing, then another. -/
def followedBy (a b : Effects σ) : Effects σ :=
  ⟨a.commands ++ b.commands, a.notices ++ b.notices, a.log ++ b.log⟩

/-- Nothing but a note. -/
def note (entry : Log.Entry) : Effects σ := { log := [entry] }

end Effects

namespace Session

variable {σ : Type}

/-- The status of the session. -/
def status (s : Session σ) : JobStatus :=
  .derive {
    connected := s.connected, pending := s.pending, failed := s.failed, running := s.running
    analysisReady := s.analysisReady, next := s.flow.next, latest := s.flow.latest
    total := s.flow.total }

/-- The height map of the last frame, once the job is done. -/
def heightMap (s : Session σ) (bins : Nat) : Option HeightMap := do
  let frame ← s.analysis
  HeightMap.ofFrame frame.species frame.frame bins

/-- Registers a sink for the current job. -/
def registerSink (s : Session σ) (sink : σ) : Session σ :=
  { s with trajectory := s.trajectory.register sink }

/-- Releases the sinks and keeps the frames. -/
def releaseSinks (s : Session σ) : Session σ × Effects σ :=
  let (trajectory, notices) := s.trajectory.releaseSinks
  ({ s with trajectory }, { notices })

/-- Stops both timers. -/
def cancelTimers : List Command := [.cancelTimer .debounce, .cancelTimer .retry]

/-- The session without a running job. -/
def stopped (s : Session σ) : Session σ := { s with running := false, armed := false }

/-! ### What a user does -/

/-- Why a submission is refused, if it is. -/
def submitRejection? (s : Session σ) (c : Configuration) : Option Rejection :=
  if !s.connected then some .disconnected
  else if s.pending then some .pending
  else if s.running then some .alreadyRunning
  else
    match c.validate with
    | .error e => some (.invalid e)
    | .ok () => none

/-- Submits a job. Everything about the job before it is forgotten, and its sinks are released. -/
def submit (s : Session σ) (c : Configuration) : Except Rejection (Session σ × Effects σ) :=
  match s.submitRejection? c with
  | some rejection => .error rejection
  | none =>
    let (trajectory, notices) := s.trajectory.clear
    .ok ({ timing := s.timing, connected := s.connected, running := true, pending := true
           trajectory },
      { commands := cancelTimers ++ [.send (.submit c.submissionText)]
        notices
        log := [Log.info "submitting job" [("job", .text c.jobName)]] })

/-- Cancels the running job; segments that are still on their way will be dropped. -/
def cancel (s : Session σ) : Except Rejection (Session σ × Effects σ) :=
  if !s.connected then .error .disconnected
  else if !s.running then .error .notRunning
  else
    .ok ({ s.stopped with pending := true },
      { commands := cancelTimers ++ [.send .cancel]
        log := [Log.info "cancelling job" [("next_segment", .number s.flow.next.toNat)]] })

/-! ### What to do next -/

/-- Looks at the download of a running job and takes the next step of it: a request, which waits for
its delay; the end of the job; or nothing. -/
def evaluate (s : Session σ) : Session σ × Effects σ :=
  if !s.running then (s, {})
  else
    match s.flow.evaluate with
    | (flow, .idle) => ({ s with flow }, {})
    | (flow, .request _) =>
      ({ s with flow, armed := true },
        { commands := [.schedule .debounce s.timing.debounce, .schedule .retry s.timing.retry] })
    | (flow, .finished) =>
      ({ s.stopped with flow, analysis := s.trajectory.lastFrame?, analysisReady := true },
        { commands := cancelTimers ++ [.finished]
          log := [Log.info "trajectory complete" [("frames", .number s.trajectory.frames.length),
            ("particles", .number s.trajectory.particleCount)]] })

/-- A step that leaves a note before it. -/
def noting (entry : Log.Entry) (step : Session σ × Effects σ) : Session σ × Effects σ :=
  (step.1, (Effects.note entry).followedBy step.2)

/-! ### What the connection does -/

/-- There is a connection. -/
def onConnected (s : Session σ) : Session σ × Effects σ :=
  ({ s with connected := true }, .note (Log.info "connected"))

/-- The connection is lost. -/
def onDisconnected (s : Session σ) : Session σ × Effects σ :=
  ({ s with connected := false },
    if s.connected then
      .note (Log.warn "connection lost"
        [("next_segment", .number s.flow.next.toNat), ("waiting", .flag s.flow.waiting)])
    else {})

/-- A message of the server reaches a running job. -/
def onMessage (s : Session σ) : ServerMessage → Session σ × Effects σ
  | .queued => (s, .note (Log.info "job queued"))
  | .newFrames available =>
    noting (Log.debug "segments available"
        [("latest", .number available.latest.toNat), ("total", .number available.total.toNat)])
      (evaluate { s with flow := s.flow.announce available })
  | .segmentNotReady id =>
    let (flow, cleared) := s.flow.notReady id
    ({ s with flow },
      if cleared then .note (Log.debug "segment not ready yet" [("segment", .number id.toNat)])
      else {})
  | .cancelled =>
    (s.stopped, { commands := cancelTimers, log := [Log.info "job cancelled by server"] })
  | .failed =>
    ({ s.stopped with failed := true },
      { commands := cancelTimers
        log := [Log.warn "job failed" [("frames", .number s.trajectory.frames.length)]] })
  | .unknown _ => (s, .note (Log.warn "unknown server message"))

/-- A text arrives. Whatever it says, it answers a pending request. -/
def onText (s : Session σ) (text : String) : Session σ × Effects σ :=
  let s := { s with pending := false }
  match ServerMessage.parse text with
  | .error e => (s, .note (Log.warn "discarding malformed message" [("error", .text e.message)]))
  | .ok message =>
    if s.running then s.onMessage message
    else if message = .cancelled then (s, {})
    else (s, .note (Log.debug "no job running, ignoring message"))

/-- The segment in flight arrives: its frames are appended and the download goes on. -/
def accept (s : Session σ) (segment : Segment) : Session σ × Effects σ :=
  match s.trajectory.append segment with
  | .error e => (s, .note (Log.warn "discarding segment" [("error", .text e.message)]))
  | .ok (trajectory, notices) =>
    let (s, effects) := evaluate { s with trajectory, flow := s.flow.received }
    let entry := Log.debug "segment appended"
      [("segment", .number segment.id.toNat), ("frames", .number segment.frames.length)]
    (s, Effects.followedBy
      { commands := [.cancelTimer .retry], notices, log := [entry] } effects)

/-- A binary message arrives. Only the segment in flight is of use. -/
def onBinary (s : Session σ) (buffer : Bytes) : Session σ × Effects σ :=
  let s := { s with pending := false }
  let bytes : String × Log.Value := ("bytes", .number buffer.length)
  if !s.running then (s, .note (Log.debug "no job running, ignoring segment" [bytes]))
  else if !s.flow.waiting then
    (s, .note (Log.warn "segment arrived with no request in flight" [bytes]))
  else
    match Segment.decode buffer with
    | .error e =>
      (s, .note (Log.warn "discarding undecodable segment" [("error", .text e.message)]))
    | .ok segment =>
      if s.flow.expects segment.id then s.accept segment
      else
        (s, .note (Log.warn "discarding out-of-order segment"
          [("got", .number segment.id.toNat), ("expected", .number s.flow.next.toNat)]))

/-! ### What the clock does -/

/-- A timer runs out. The delay of a request is over, or it is time to ask again; if the last
request was answered with "not yet", the download is looked at afresh. -/
def onTimer (s : Session σ) (timer : Timer) : Session σ × Effects σ :=
  if !s.running then (s, {})
  else
    let segment : String × Log.Value := ("segment", .number s.flow.next.toNat)
    match timer with
    | .debounce =>
      ({ s with armed := false },
        if s.armed && s.flow.waiting then
          { commands := [.send (.request s.flow.next)]
            log := [Log.debug "requesting segment" [segment]] }
        else {})
    | .retry =>
      if s.flow.waiting then
        (s, { commands := [.send (.request s.flow.next), .schedule .retry s.timing.retry]
              log := [Log.debug "re-requesting segment" [segment]] })
      else s.evaluate

/-- One step of a session. -/
def handle (s : Session σ) : Event → Session σ × Effects σ
  | .connected => s.onConnected
  | .disconnected => s.onDisconnected
  | .text text => s.onText text
  | .binary buffer => s.onBinary buffer
  | .timer timer => s.onTimer timer

end Session

end Deposition
