import Deposition.Connection
import Deposition.Job.Basic

/-!
# A job and its connection

A running client is two tasks with a queue in each direction: the job hands messages to the
connection, and the connection passes events on to the job. Neither task waits for the other, so
between sending and picking up, or between passing on and looking at, anything may happen – the
socket may be lost with a message still in the queue.

A `Deposition.Client.Move` is one thing that one of the tasks does. Every order of moves is
possible, and a run of the client is any list of them.
-/

namespace Deposition

/-- A job with its connection and what is under way between them. -/
structure Client where
  /-- The job. -/
  job : Job
  /-- The connection. -/
  connection : Connection := .down
  /-- What the job has sent and the connection has not picked up, the oldest first. -/
  outbound : List ClientMessage := []
  /-- What the connection has passed on and the job has not looked at, the oldest first. -/
  inbound : List Event := []
  /-- How the job has ended, if it has. -/
  outcome : Option (Except Failure JobOutcome) := none

namespace Client

/-- One thing that one of the tasks does. -/
inductive Move
  /-- The connection sees whether the socket is down. -/
  | check
  /-- The server answers the dialling. -/
  | accepted
  /-- The dialling fails. -/
  | refused
  /-- The socket hands something over. -/
  | received (message : SocketMessage)
  /-- The socket is closed or broken. -/
  | lost
  /-- The connection picks up the oldest message, which can be written to the socket or not. -/
  | pickUp (writable : Bool)
  /-- The job looks at the oldest event. -/
  | lookAt
  /-- The timer of the job that is due runs out. -/
  | timer
  /-- The user interrupts. -/
  | interrupt
  /-- The server has had its time to answer an interruption. -/
  | graceOver
deriving DecidableEq

/-- The event that an action passes on, if it passes one on. -/
def forwarded? : Connection.Action → Option Event
  | .forward event => some event
  | _ => none

/-- The client after something has happened to the connection. -/
def connectionStep (c : Client) (input : Connection.Input) : Client × List Connection.Action :=
  let (connection, actions) := c.connection.step input
  ({ c with connection, inbound := c.inbound ++ actions.filterMap forwarded? }, actions)

/-- The client after something has happened to the job. When the job ends, so does the
connection. -/
def jobStep (c : Client) (now : Nat) (occurrence : Job.Occurrence) :
    Client × List Connection.Action :=
  let step := c.job.step now occurrence
  let c := { c with job := step.job, outbound := c.outbound ++ step.sends, outcome := step.ended }
  if step.ended.isSome then c.connectionStep .shutdown else (c, [])

/-- The connection picks up the oldest message, if it picks up anything. -/
def pickUp (c : Client) (writable : Bool) : Client × List Connection.Action :=
  match c.outbound with
  | [] => (c, [])
  | message :: rest =>
    if c.connection.picksUp then
      connectionStep { c with outbound := rest } (.outbound message writable)
    else (c, [])

/-- The job looks at the oldest event, if there is one. -/
def lookAt (c : Client) (now : Nat) : Client × List Connection.Action :=
  match c.inbound with
  | [] => (c, [])
  | event :: rest => jobStep { c with inbound := rest } now (.event event)

/-- One move of the client, and what the connection does. A client whose job has ended makes no more
moves. -/
def move (c : Client) (now : Nat) (m : Move) : Client × List Connection.Action :=
  if c.outcome.isSome then (c, [])
  else
    match m with
    | .check => c.connectionStep .check
    | .accepted => c.connectionStep .accepted
    | .refused => c.connectionStep .refused
    | .received message => c.connectionStep (.received message)
    | .lost => c.connectionStep .lost
    | .pickUp writable => c.pickUp writable
    | .lookAt => c.lookAt now
    | .timer => c.jobStep now .timer
    | .interrupt => c.jobStep now .interrupt
    | .graceOver => c.jobStep now .graceOver

/-- A client whose job has ended stays as it is. -/
theorem move_of_outcome {c : Client} (h : c.outcome.isSome = true) (now : Nat) (m : Move) :
    c.move now m = (c, []) := by
  simp [move, h]

end Client

end Deposition
