import Deposition.Json.Value

/-!
# The status of a job

What a user is told about a job is a function of a few facts about the session, and the first fact
that applies decides: no connection hides everything else, an unanswered request hides what the job
is doing, and so on down to a session with nothing to show.
-/

namespace Deposition

/-- The facts that a status is derived from. -/
structure StatusFacts where
  /-- Whether there is a connection. -/
  connected : Bool
  /-- Whether a request to start or stop a job is unanswered. -/
  pending : Bool
  /-- Whether the job has failed. -/
  failed : Bool
  /-- Whether a job is running. -/
  running : Bool
  /-- Whether a job has finished and can be analysed. -/
  analysisReady : Bool
  /-- The segment that comes next. -/
  next : UInt32
  /-- The latest segment announced. -/
  latest : UInt32
  /-- The number of segments of the job. -/
  total : UInt32

/-- What a user is told. -/
inductive JobStatus
  /-- There is no connection. -/
  | disconnected
  /-- A request is unanswered. -/
  | submitting
  /-- The job has failed. -/
  | failed
  /-- The job waits for its turn. -/
  | queued
  /-- The server simulates this step of so many. -/
  | running (step total : UInt32)
  /-- The simulation is over, and this segment of so many is still to be fetched. -/
  | downloading (next total : UInt32)
  /-- Everything is there. -/
  | complete
  /-- No job. -/
  | idle
deriving DecidableEq

namespace JobStatus

/-- The first status that applies. -/
def derive (f : StatusFacts) : JobStatus :=
  if !f.connected then .disconnected
  else if f.pending then .submitting
  else if f.failed then .failed
  else if f.running then
    if f.total = 0 then .queued
    else if f.latest < f.total then .running (f.latest + 1) f.total
    else .downloading f.next f.total
  else if f.analysisReady then .complete
  else .idle

/-- The words for a status. -/
def text : JobStatus → String
  | .disconnected => "Disconnected"
  | .submitting => "Submitting"
  | .failed => "Failed!"
  | .queued => "In Queue"
  | .running step total => s!"Running step {step.toNat} of {total.toNat}"
  | .downloading next total =>
    s!"Complete (downloading segment {next.toNat} of {total.toNat})"
  | .complete => "Complete"
  | .idle => "Idle"

/-- The JSON form of a status: its name, with the numbers that belong to it. -/
def toJson : JobStatus → Json
  | .disconnected => .record [("state", .text "disconnected")]
  | .submitting => .record [("state", .text "submitting")]
  | .failed => .record [("state", .text "failed")]
  | .queued => .record [("state", .text "queued")]
  | .running step total =>
    .record [("state", .text "running"), ("step", .natural step.toNat),
      ("total", .natural total.toNat)]
  | .downloading next total =>
    .record [("state", .text "downloading"), ("next", .natural next.toNat),
      ("total", .natural total.toNat)]
  | .complete => .record [("state", .text "complete")]
  | .idle => .record [("state", .text "idle")]

end JobStatus

end Deposition
