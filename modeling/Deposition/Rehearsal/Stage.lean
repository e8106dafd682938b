import Deposition.Job.Client
import Deposition.Rehearsal.Script

/-!
# Rehearsing a job

A client and a scripted server are played against each other on a clock that nobody waits for. As
long as anything is under way – an event to look at, a message to pick up, a socket to answer, an
action of the server – the clock stands still, in this order; then it goes to what comes next: a
timer of the job, a reconnect check, or the end of the user's patience after an interruption.

A script may leave the client waiting for ever, and then the rehearsal is stopped after a number of
moves.
-/

namespace Deposition

/-- A rehearsal under way. -/
structure Stage where
  /-- The client. -/
  client : Client
  /-- The time. -/
  now : Nat := 0
  /-- The time between two reconnect checks. -/
  period : Nat
  /-- When the next reconnect check is due. -/
  checkAt : Nat := 0
  /-- How the sockets will fare that are not answered yet. -/
  sockets : List ServerSocket
  /-- The turns that the open socket has left. -/
  turns : List (List ServerAction) := []
  /-- What the server is about to do. -/
  actions : List ServerAction := []
  /-- The messages that the server has heard on each socket, the first socket first. -/
  heard : List (List String) := []
  /-- The statuses that the user has been shown. -/
  statuses : List JobStatus := [.disconnected]

namespace Stage

/-- The messages on each socket with one more on the last. -/
def withMessage (text : String) : List (List String) → List (List String)
  | [] => []
  | [messages] => [messages ++ [text]]
  | messages :: rest => messages :: withMessage text rest

/-- The server sees what the connection does. -/
def witness (s : Stage) : Connection.Action → Stage
  | .dial => { s with heard := s.heard ++ [[]] }
  | .write text =>
    { s with
      heard := withMessage text s.heard
      actions := s.actions ++ s.turns.head?.getD []
      turns := s.turns.tail }
  | .forward _ | .hangUp => s

/-- The stage after a move of the client. -/
def advance (s : Stage) (m : Client.Move) : Stage :=
  let (client, actions) := s.client.move s.now m
  let shown := client.job.shown
  let s := { s with
    client
    statuses := if shown = s.client.job.shown then s.statuses else s.statuses ++ [shown] }
  actions.foldl witness s

/-- The server does the next thing of its turn. -/
def act (s : Stage) : ServerAction → Stage
  | .text text => s.advance (.received (.text text))
  | .binary bytes => s.advance (.received (.binary bytes))
  | .ping => s.advance (.received .control)
  | .hangUp => advance { s with actions := [], turns := [] } .lost
  | .interrupt => s.advance .interrupt

/-- What the clock goes to next, of what is due and when: the first thing, or one of those that come
no later. -/
def earliest? : List (Nat × Client.Move) → Option (Nat × Client.Move)
  | [] => none
  | first :: rest =>
    match earliest? rest with
    | none => some first
    | some other => if other.1 < first.1 then some other else some first

/-- Everything that the clock can go to. -/
def agenda (s : Stage) : List (Nat × Client.Move) :=
  (if s.client.connection = .down then [(s.checkAt, .check)] else []) ++
    (s.client.job.timers.nextDue?.toList.map fun (_, time) => (time, .timer)) ++
    s.client.job.graceEnds.toList.map fun time => (time, .graceOver)

/-- The clock goes to what comes next. -/
def wait? (s : Stage) : Option Stage :=
  match earliest? s.agenda with
  | none => none
  | some (time, m) =>
    let s := { s with now := max s.now time }
    let s := if m = .check then { s with checkAt := s.now + s.period } else s
    some (s.advance m)

/-- The next thing that happens, if anything can. -/
def next? (s : Stage) : Option Stage :=
  if s.client.outcome.isSome then none
  else if !s.client.inbound.isEmpty then some (s.advance .lookAt)
  else if s.client.connection.picksUp && !s.client.outbound.isEmpty then
    some (s.advance (.pickUp true))
  else
    match s.client.connection, s.sockets, s.actions with
    | .dialling, .refuse :: sockets, _ =>
      some (advance { s with sockets } .refused)
    | .dialling, .accept turns :: sockets, _ =>
      some (advance { s with sockets, turns } .accepted)
    | .dialling, .hang true :: sockets, _ =>
      some (advance { s with sockets := .hang false :: sockets } .interrupt)
    | .up, _, action :: actions => some (act { s with actions } action)
    | _, _, _ => s.wait?

/-- The stage after so many moves, or fewer if nothing can happen any more. -/
def play : (moves : Nat) → Stage → Stage
  | 0, s => s
  | moves + 1, s =>
    match s.next? with
    | none => s
    | some s => play moves s

end Stage

/-- What was said on a socket. -/
structure Conversation where
  /-- The path at which the socket was asked for. -/
  path : String
  /-- The cookie that was sent along. -/
  cookie : Option String
  /-- The messages of the client. -/
  messages : List String
deriving DecidableEq

/-- What has become of a job in a rehearsal. -/
structure Performance where
  /-- How the job has ended; nothing if it was still going on when the rehearsal was stopped. -/
  outcome : Option (Except Failure JobOutcome)
  /-- The statuses that the user has been shown. -/
  statuses : List JobStatus := []
  /-- What was said on each socket. -/
  conversations : List Conversation := []
  /-- The files that are left. -/
  files : Files

namespace Performance

/-- After how many moves a rehearsal is stopped. -/
def patience : Nat := 100000

/-- Rehearses a job. The configuration and the server's address are looked at before anything is
dialled. -/
def rehearse (preferences : Preferences) (configuration : Configuration) (options : JobOptions)
    (files : Files) (sockets : List ServerSocket) : Performance :=
  match configuration.validate with
  | .error error => { outcome := some (.error (.config error)), files }
  | .ok () =>
    match preferences.page.bind Endpoint.socket with
    | .error failure => { outcome := some (.error failure), files }
    | .ok address =>
      let stage : Stage :=
        { client := { job := .start preferences configuration options files }
          period := preferences.reconnectInterval
          sockets }
      let last := stage.play patience
      { outcome := last.client.outcome
        statuses := last.statuses
        conversations := last.heard.map fun messages =>
          ⟨Url.pathText address.path, Endpoint.cookieHeader? preferences.token, messages⟩
        files := last.client.job.exports.close }

end Performance

end Deposition
