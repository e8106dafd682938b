import Deposition.Job.Client
import Mathlib.Data.List.Induction

/-!
# The connection and what is around it

The task that looks after the socket stands between three others. Somebody gives it messages,
through a queue, and may stop doing so; somebody listens to its events, and may stop listening; and
there is the network, on which dials are answered, sockets open and close, and frames arrive. A
`Deposition.Line` is the task with all of these. Each of them acts on its own, so what happens to a
line is any list of `Deposition.Line.Happening`s.

The network has a state of its own: the dials that have not been answered, and the sockets that are
open. It does not ask the task before it opens a socket. It answers every dial that the task has
made, and each answer may open one more socket; that there is never a second one is something that
the task has to see to (`Deposition.Line.Wired`). What a happening does to a task that is wired in
this way is one of the things listed in `Deposition.Line.Change`, and everything else about a line
is shown by one case for each.

What is done on a line is kept in a `Deposition.Line.Account`. It is kept on both sides of the task
and without regard to the other side: a frame that was read from a socket is noted as it arrives,
before the task has looked at it, and what was passed on is noted where the event goes out; what is
picked up is noted with the socket that is open on the network at the time, and what is written with
the socket that it is written to.
-/

namespace Deposition

/-- The task that looks after the socket, and what is around it. -/
structure Line where
  /-- The task. -/
  connection : Connection := .down
  /-- The messages that it has been given and has not picked up, the oldest first. -/
  queue : List ClientMessage := []
  /-- Whether there is anybody who can give it messages. -/
  speaking : Bool := true
  /-- Whether anybody listens to its events. -/
  listening : Bool := true
  /-- The dials that the network has not answered. -/
  dials : Nat := 0
  /-- The sockets that are open, each by its number. -/
  sockets : List Nat := []
  /-- How many sockets there have been. -/
  opened : Nat := 0

namespace Line

/-- What happens to a line. -/
inductive Happening
  /-- A message is given to the task. -/
  | send (message : ClientMessage)
  /-- The last of those who give it messages goes away. -/
  | fallSilent
  /-- Nobody listens to its events any more. -/
  | turnAway
  /-- It is time to see whether the socket is down. -/
  | check
  /-- The network answers a dial, and opens a socket. -/
  | accepted
  /-- The network refuses a dial. -/
  | refused
  /-- A frame is read from the socket. -/
  | received (message : SocketMessage)
  /-- The server closes the socket, or the socket breaks. -/
  | lost
  /-- The task looks into its queue. A message that it finds there may turn out to be one that
  cannot be written, the socket being broken. -/
  | pickUp (writable : Bool)
  /-- The job is over. -/
  | shutdown
deriving DecidableEq

/-- A message that was picked up. -/
structure Pickup where
  /-- The message. -/
  message : ClientMessage
  /-- The socket that was open, if there was one. -/
  socket : Option Nat
  /-- Whether it could be written to. -/
  writable : Bool
deriving DecidableEq

/-- **What should be written of a message that is picked up**: the message, to the socket that is
open; and nothing if there is none, or if it is broken. -/
def Pickup.written? (pickup : Pickup) : Option (Option Nat × String) :=
  if pickup.writable then pickup.socket.map fun socket => (some socket, pickup.message.text)
  else none

/-- What has been done on a line, in order. -/
structure Account where
  /-- The messages that were given to the task. -/
  sent : List ClientMessage := []
  /-- Those that it has picked up. -/
  picked : List Pickup := []
  /-- What was written, and to which socket. -/
  written : List (Option Nat × String) := []
  /-- The frames that were read while somebody listened, as they came from the socket. -/
  heard : List SocketMessage := []
  /-- The events that were passed on. -/
  forwarded : List Event := []

namespace Account

/-- First one thing, then another. -/
def followedBy (a b : Account) : Account :=
  ⟨a.sent ++ b.sent, a.picked ++ b.picked, a.written ++ b.written, a.heard ++ b.heard,
    a.forwarded ++ b.forwarded⟩

@[simp] theorem followedBy_empty (a : Account) : a.followedBy {} = a := by simp [followedBy]

@[simp] theorem empty_followedBy (a : Account) : followedBy {} a = a := by simp [followedBy]

theorem followedBy_assoc (a b c : Account) :
    (a.followedBy b).followedBy c = a.followedBy (b.followedBy c) := by
  simp [followedBy]

end Account

/-- The socket that a write goes to: the one that was opened last. -/
def socket? (line : Line) : Option Nat := line.sockets.getLast?

/-- What an action writes. -/
def written? (line : Line) : Connection.Action → Option (Option Nat × String)
  | .write text => some (line.socket?, text)
  | .dial | .forward _ | .hangUp => none

/-- The task does something about an input. An event that nobody listens to ends it, as the end of
the job does; with the task go its dials and its sockets. -/
def advance (line : Line) (input : Connection.Input) : Line × Account :=
  let (connection, actions) := line.connection.step input
  let events := actions.filterMap Client.forwarded?
  let connection := if line.listening || events.isEmpty then connection else .ended
  ({ line with
      connection
      dials := if connection = .ended then 0 else line.dials + actions.count .dial
      sockets := if connection = .ended then [] else line.sockets },
    { written := actions.filterMap line.written?
      forwarded := if line.listening then events else [] })

/-- The task picks up a message. -/
def pickUp (line : Line) (message : ClientMessage) (rest : List ClientMessage)
    (writable : Bool) : Line × Account :=
  let (after, account) := advance
    { line with
      queue := rest
      sockets := if writable then line.sockets else line.sockets.dropLast }
    (.outbound message writable)
  (after, { account with picked := [⟨message, line.socket?, writable⟩] })

/-- One thing that happens to a line. What cannot happen as things stand changes nothing: the
network answers no dial that has not been made, and without a socket nothing can be read or lost.
A check at which no request can be put together is no check. -/
def step (line : Line) : Happening → Line × Account
  | .send message =>
    if line.speaking then
      -- a task that has ended takes no messages
      ({ line with
          queue := if line.connection = .ended then line.queue else line.queue ++ [message] },
        { sent := [message] })
    else (line, {})
  | .fallSilent => ({ line with speaking := false }, {})
  | .turnAway => ({ line with listening := false }, {})
  | .check => line.advance .check
  | .accepted =>
    if line.dials = 0 then (line, {})
    else
      advance { line with
        dials := line.dials - 1
        sockets := line.sockets ++ [line.opened]
        opened := line.opened + 1 } .accepted
  | .refused =>
    if line.dials = 0 then (line, {}) else advance { line with dials := line.dials - 1 } .refused
  | .received message =>
    if line.sockets = [] then (line, {})
    else
      let (after, account) := line.advance (.received message)
      (after, { account with heard := if line.listening then [message] else [] })
  | .lost =>
    if line.sockets = [] then (line, {})
    else advance { line with sockets := line.sockets.dropLast } .lost
  | .pickUp writable =>
    if line.connection.picksUp then
      match line.queue with
      | [] => if line.speaking then (line, {}) else line.advance .shutdown
      | message :: rest => line.pickUp message rest writable
    else (line, {})
  | .shutdown => line.advance .shutdown

/-- Several things that happen to a line, and all that is done about them. -/
def run (line : Line) : List Happening → Line × Account
  | [] => (line, {})
  | happening :: happenings =>
    let (after, account) := line.step happening
    let (last, more) := after.run happenings
    (last, account.followedBy more)

/-- **A run and one happening more.** -/
theorem run_concat (line : Line) (happenings : List Happening) (happening : Happening) :
    line.run (happenings ++ [happening]) = (((line.run happenings).1.step happening).1,
      (line.run happenings).2.followedBy ((line.run happenings).1.step happening).2) := by
  induction happenings generalizing line with
  | nil => simp [run]
  | cons first happenings ih => simp [run, ih, Account.followedBy_assoc]

/-- **The induction over what happens**: what holds at the start, and is kept by everything that can
happen, holds of the line at the end and of all that was done on the way. -/
theorem run_induction {P : Line → Account → Prop} {line : Line} (happenings : List Happening)
    (start : P line {})
    (step : ∀ l account happening, P l account →
      P (l.step happening).1 (account.followedBy (l.step happening).2)) :
    P (line.run happenings).1 (line.run happenings).2 := by
  induction happenings using List.reverseRecOn with
  | nil => exact start
  | append_singleton happenings happening ih =>
    rw [run_concat]
    exact step _ _ happening ih

/-! ### What can happen -/

/-- **The dials and the sockets that there are, by what the task does**: one dial while it dials,
one socket while it has one, and otherwise neither. -/
inductive Wired : Connection → Nat → List Nat → Prop
  | down : Wired .down 0 []
  | dialling : Wired .dialling 1 []
  | up (socket : Nat) : Wired .up 0 [socket]
  | ended : Wired .ended 0 []

/-- **What a happening does** to a task that is wired: to the task and to its queue, and what is
done. -/
inductive Change :
    Connection → List ClientMessage → Connection → List ClientMessage → Account → Prop
  /-- Nothing that concerns the task. -/
  | none (c : Connection) (queue : List ClientMessage) : Change c queue c queue {}
  /-- It is given a message. -/
  | given (message : ClientMessage) {c : Connection} (hc : c ≠ .ended)
      (queue : List ClientMessage) :
      Change c queue c (queue ++ [message]) { sent := [message] }
  /-- A message comes too late. -/
  | late (message : ClientMessage) (queue : List ClientMessage) :
      Change .ended queue .ended queue { sent := [message] }
  /-- It dials. -/
  | dialled (queue : List ClientMessage) : Change .down queue .dialling queue {}
  /-- The dial is refused. -/
  | refused (queue : List ClientMessage) : Change .dialling queue .down queue {}
  /-- It has a socket. -/
  | connected (queue : List ClientMessage) :
      Change .dialling queue .up queue { forwarded := [.connected] }
  /-- It reads a frame, and passes on what it makes of it. -/
  | read (message : SocketMessage) (queue : List ClientMessage) :
      Change .up queue .up queue
        { heard := [message]
          forwarded := (Connection.event? message).toList }
  /-- It has lost the socket. -/
  | lost (queue : List ClientMessage) :
      Change .up queue .down queue { forwarded := [.disconnected] }
  /-- It ends. -/
  | ended (c : Connection) (queue : List ClientMessage) : Change c queue .ended queue {}
  /-- It picks up a message, and there is no socket. -/
  | dropped (message : ClientMessage) (writable : Bool) (queue : List ClientMessage) :
      Change .down (message :: queue) .down queue { picked := [⟨message, none, writable⟩] }
  /-- It picks up a message, and writes it. -/
  | written (message : ClientMessage) (socket : Nat) (queue : List ClientMessage) :
      Change .up (message :: queue) .up queue
        { picked := [⟨message, some socket, true⟩], written := [(some socket, message.text)] }
  /-- It picks up a message, and finds the socket broken. -/
  | broken (message : ClientMessage) (socket : Nat) (queue : List ClientMessage) :
      Change .up (message :: queue) .down queue
        { picked := [⟨message, some socket, false⟩], forwarded := [.disconnected] }
  /-- It picks up a message, finds the socket broken, and nobody listens. -/
  | brokenUnheard (message : ClientMessage) (socket : Nat) (queue : List ClientMessage) :
      Change .up (message :: queue) .ended queue { picked := [⟨message, some socket, false⟩] }

/-- **What is to be shown of each happening**: that it is one of the changes, and that the line is
wired afterwards. -/
def Changes (line : Line) (result : Line × Account) : Prop :=
  Change line.connection line.queue result.1.connection result.1.queue result.2 ∧
    Wired result.1.connection result.1.dials result.1.sockets

section

variable {line : Line}

/-- What has no effect is one of the changes. -/
theorem changes_refl (h : Wired line.connection line.dials line.sockets) :
    line.Changes (line, {}) :=
  ⟨.none _ _, h⟩

theorem changes_send (h : Wired line.connection line.dials line.sockets) (message : ClientMessage) :
    line.Changes (line.step (.send message)) := by
  unfold step
  dsimp only
  split
  · refine ⟨?_, h⟩
    dsimp only
    split
    · next hended =>
      rw [hended]
      exact .late message _
    · next hc => exact .given message hc _
  · exact changes_refl h

/-- **The end of the job** ends the task, whatever it does. -/
theorem changes_shutdown (h : Wired line.connection line.dials line.sockets) :
    line.Changes (line.advance .shutdown) := by
  obtain ⟨connection, queue, speaking, listening, dials, sockets, opened⟩ := line
  cases h <;> cases listening <;> exact ⟨.ended _ _, .ended⟩

theorem changes_check (h : Wired line.connection line.dials line.sockets) :
    line.Changes (line.advance .check) := by
  obtain ⟨connection, queue, speaking, listening, dials, sockets, opened⟩ := line
  cases h with
  | down => cases listening <;> exact ⟨.dialled _, .dialling⟩
  | dialling => cases listening <;> exact ⟨.none _ _, .dialling⟩
  | up socket => cases listening <;> exact ⟨.none _ _, .up socket⟩
  | ended => cases listening <;> exact ⟨.none _ _, .ended⟩

/-- **The answer to a dial**: there is none unless the task dials. -/
theorem changes_answer (h : Wired line.connection line.dials line.sockets) :
    line.Changes (line.step .accepted) ∧ line.Changes (line.step .refused) := by
  obtain ⟨connection, queue, speaking, listening, dials, sockets, opened⟩ := line
  cases h with
  | down | ended | up => exact ⟨changes_refl (by constructor), changes_refl (by constructor)⟩
  | dialling =>
    constructor
    · cases listening
      · exact ⟨.ended _ _, .ended⟩
      · exact ⟨.connected _, .up opened⟩
    · cases listening <;> exact ⟨.refused _, .down⟩

theorem changes_received (h : Wired line.connection line.dials line.sockets)
    (message : SocketMessage) : line.Changes (line.step (.received message)) := by
  obtain ⟨connection, queue, speaking, listening, dials, sockets, opened⟩ := line
  cases h with
  | down | dialling | ended => exact changes_refl (by constructor)
  | up socket =>
    cases message with
    | text text =>
      cases listening
      · exact ⟨.ended _ _, .ended⟩
      · exact ⟨.read (.text text) _, .up socket⟩
    | binary bytes =>
      cases listening
      · exact ⟨.ended _ _, .ended⟩
      · exact ⟨.read (.binary bytes) _, .up socket⟩
    | control =>
      cases listening
      · exact ⟨.none _ _, .up socket⟩
      · exact ⟨.read .control _, .up socket⟩

theorem changes_lost (h : Wired line.connection line.dials line.sockets) :
    line.Changes (line.step .lost) := by
  obtain ⟨connection, queue, speaking, listening, dials, sockets, opened⟩ := line
  cases h with
  | down | dialling | ended => exact changes_refl (by constructor)
  | up socket =>
    cases listening
    · exact ⟨.ended _ _, .ended⟩
    · exact ⟨.lost _, .down⟩

theorem changes_pickUp (h : Wired line.connection line.dials line.sockets) (writable : Bool) :
    line.Changes (line.step (.pickUp writable)) := by
  unfold step
  dsimp only
  split
  · next hp =>
    split
    · split
      · exact changes_refl h
      · exact changes_shutdown h
    · next message rest hqueue =>
      obtain ⟨connection, queue, speaking, listening, dials, sockets, opened⟩ := line
      subst hqueue
      cases h with
      | dialling | ended => cases hp
      | down => cases writable <;> cases listening <;> exact ⟨.dropped _ _ _, .down⟩
      | up socket =>
        cases writable with
        | true => cases listening <;> exact ⟨.written _ _ _, .up socket⟩
        | false =>
          cases listening
          · exact ⟨.brokenUnheard _ _ _, .ended⟩
          · exact ⟨.broken _ _ _, .down⟩
  · exact changes_refl h

/-- **Everything that happens to a line that is wired is one of the changes, and leaves it
wired.** -/
theorem changes_step (h : Wired line.connection line.dials line.sockets) (happening : Happening) :
    line.Changes (line.step happening) := by
  cases happening with
  | send message => exact changes_send h message
  | fallSilent | turnAway => exact ⟨.none _ _, h⟩
  | check => exact changes_check h
  | accepted => exact (changes_answer h).1
  | refused => exact (changes_answer h).2
  | received message => exact changes_received h message
  | lost => exact changes_lost h
  | pickUp writable => exact changes_pickUp h writable
  | shutdown => exact changes_shutdown h

end

end Line

end Deposition
