import Deposition.Proofs.Connection.Line
import Deposition.Proofs.Exchange.Basic

/-!
# What a connection carries

A connection carries frames in one direction and messages in the other, and sockets come and go
meanwhile. Whoever listens to it is told of *visits*: of a socket, then of what was read from it,
in order and completely, and then that it is gone (`Deposition.Line.Visited`). That nothing is
missing is said of the frames as they came from the socket: every event that is a message tells of a
frame (`Deposition.Event.frame?`), and the frames that were told of are those that were read, except
for the ones that concern the socket alone. Whoever gives it messages is told nothing; but they are
taken in the order in which they were given, each of them once, and each goes to the socket that is
there when it is taken or nowhere (`Deposition.Line.InTurn`).

Both are shown along what happens, whatever that is: each change of a task that is wired
(`Deposition.Line.Change`) keeps them, so every line has them that was at rest at the start
(`Deposition.Line.carries_once_in_order`).
-/

namespace Deposition

/-- **The frame that an event tells of**, if it tells of one: a text of the same text, and bytes of
the same bytes. -/
def Event.frame? : Event → Option SocketMessage
  | .text content => some (.text content)
  | .binary buffer => some (.binary buffer)
  | .connected | .disconnected | .timer _ => none

namespace Line

/-! ### Visits -/

/-- The events of a visit: a socket, what is read from it, and the end of it. -/
def visit (messages : List Event) : List Event := .connected :: messages ++ [.disconnected]

/-- The events of several visits. -/
def visits (read : List (List Event)) : List Event := read.flatMap visit

theorem visits_concat (read : List (List Event)) (messages : List Event) :
    visits (read ++ [messages]) = visits read ++ visit messages := by
  simp [visits]

/-- Whether all events are messages. -/
def AllMessages (events : List Event) : Prop := ∀ event ∈ events, event.isMessage = true

/-- **Between two visits**: the events are those of complete visits. -/
def Outside (events : List Event) : Prop :=
  ∃ read : List (List Event), (∀ messages ∈ read, AllMessages messages) ∧ events = visits read

/-- **During a visit**: the end is still to come. -/
def Inside (events : List Event) : Prop :=
  ∃ before messages, Outside before ∧ AllMessages messages ∧
    events = before ++ .connected :: messages

/-- **The events of a task**, by what it does: it is outside of a visit or inside of one, and when
it ends it may be either. -/
def Visited : Connection → List Event → Prop
  | .down, events | .dialling, events => Outside events
  | .up, events => Inside events
  | .ended, events => Outside events ∨ Inside events

variable {c c' : Connection} {queue queue' : List ClientMessage} {events : List Event}
  {account : Account} {event : Event}

theorem AllMessages.concat (h : AllMessages events) (hevent : event.isMessage = true) :
    AllMessages (events ++ [event]) := by
  intro e he
  rcases List.mem_append.mp he with he | he
  · exact h e he
  · exact List.mem_singleton.mp he ▸ hevent

theorem Outside.nil : Outside [] := ⟨[], by simp, rfl⟩

theorem Outside.enter (h : Outside events) : Inside (events ++ [.connected]) :=
  ⟨events, [], h, by simp [AllMessages], rfl⟩

theorem Inside.read (h : Inside events) (hevent : event.isMessage = true) :
    Inside (events ++ [event]) := by
  obtain ⟨before, messages, hbefore, hmessages, rfl⟩ := h
  exact ⟨before, messages ++ [event], hbefore, hmessages.concat hevent, by simp⟩

theorem Inside.leave (h : Inside events) : Outside (events ++ [.disconnected]) := by
  obtain ⟨before, messages, ⟨read, hread, rfl⟩, hmessages, rfl⟩ := h
  refine ⟨read ++ [messages], fun ms hms => ?_, ?_⟩
  · rcases List.mem_append.mp hms with hms | hms
    · exact hread ms hms
    · exact List.mem_singleton.mp hms ▸ hmessages
  · rw [visits_concat]
    simp [visit]

/-- The events of a task are the beginning of some visits. -/
theorem Visited.prefix_visits (h : Visited c events) :
    ∃ read : List (List Event), (∀ messages ∈ read, AllMessages messages) ∧
      events <+: visits read := by
  have outside : Outside events → ∃ read : List (List Event),
      (∀ messages ∈ read, AllMessages messages) ∧ events <+: visits read := by
    rintro ⟨read, hread, rfl⟩
    exact ⟨read, hread, List.prefix_rfl⟩
  -- a visit that goes on may end at any time
  have inside (hin : Inside events) : ∃ read : List (List Event),
      (∀ messages ∈ read, AllMessages messages) ∧ events <+: visits read := by
    obtain ⟨read, hread, hevents⟩ := hin.leave
    exact ⟨read, hread, hevents ▸ List.prefix_append _ _⟩
  cases c with
  | down | dialling => exact outside h
  | up => exact inside h
  | ended => exact h.elim outside inside

/-- An event that a frame of the socket is, is a message. -/
theorem isMessage_of_event? {message : SocketMessage} (h : event ∈ Connection.event? message) :
    event.isMessage = true := by
  cases message with
  | text | binary => cases h; rfl
  | control => cases h

/-- **Each change keeps to the visits.** -/
theorem Change.visited (h : Change c queue c' queue' account) (hc : Visited c events) :
    Visited c' (events ++ account.forwarded) := by
  cases h with
  | none | given | late | dialled | refused | dropped | written =>
    rw [List.append_nil]
    exact hc
  | connected => exact hc.enter
  | read message =>
    cases hm : Connection.event? message with
    | none =>
      rw [Option.toList_none, List.append_nil]
      exact hc
    | some event => exact hc.read (isMessage_of_event? hm)
  | lost | broken => exact hc.leave
  | brokenUnheard =>
    rw [List.append_nil]
    exact .inr hc
  | ended =>
    rw [List.append_nil]
    cases c with
    | down | dialling => exact .inl hc
    | up => exact .inr hc
    | ended => exact hc

/-- **Each change tells of the frames that it reads**, and of no others. -/
theorem Change.forwarded_frames (h : Change c queue c' queue' account) :
    account.forwarded.filterMap Event.frame? = account.heard.filter (· ≠ .control) := by
  cases h with
  | read message => cases message <;> rfl
  | none | given | late | dialled | refused | connected | lost | ended | dropped | written
  | broken | brokenUnheard => rfl

/-! ### Messages in their turn -/

/-- **Messages are taken in their turn**: those that were picked up are the first ones that were
given; and until the task ends, the others are in its queue. -/
def InTurn (c : Connection) (queue : List ClientMessage) (account : Account) : Prop :=
  account.picked.map Pickup.message <+: account.sent ∧
    (c ≠ .ended → account.sent = account.picked.map Pickup.message ++ queue)

theorem InTurn.of_eq (h : account.sent = account.picked.map Pickup.message ++ queue) :
    InTurn c queue account :=
  ⟨h ▸ List.prefix_append _ _, fun _ => h⟩

/-- **Each change takes a message only in its turn.** -/
theorem Change.inTurn {earlier : Account} (h : Change c queue c' queue' account)
    (hc : InTurn c queue earlier) : InTurn c' queue' (earlier.followedBy account) := by
  cases h with
  | none | dialled | refused | connected | read | lost =>
    simpa [InTurn, Account.followedBy] using hc
  | given message hne =>
    have hsent := hc.2 hne
    exact InTurn.of_eq (by simp [Account.followedBy, hsent])
  | late message =>
    refine ⟨?_, fun hne => absurd rfl hne⟩
    simpa [Account.followedBy] using hc.1.trans (List.prefix_append _ _)
  | ended => exact ⟨by simpa [Account.followedBy] using hc.1, fun hne => absurd rfl hne⟩
  | dropped | written | broken | brokenUnheard =>
    have hsent := hc.2 (by simp)
    exact InTurn.of_eq (by simp [Account.followedBy, hsent])

/-- **Each change writes what it should** of a message that it picks up, and nothing else. -/
theorem Change.written_eq (h : Change c queue c' queue' account) :
    account.written = account.picked.filterMap Pickup.written? := by
  cases h with
  | dropped message writable => cases writable <;> rfl
  | none | given | late | dialled | refused | connected | read | lost | ended | written
  | broken | brokenUnheard => rfl

/-! ### A line that carries -/

/-- **What is true of a line at all times**, and of all that was done on it. -/
structure Carries (line : Line) (account : Account) : Prop where
  /-- It is wired. -/
  wired : Wired line.connection line.dials line.sockets
  /-- It has passed on visits. -/
  visited : Visited line.connection account.forwarded
  /-- It has told of the frames that were read. -/
  carried : account.forwarded.filterMap Event.frame? = account.heard.filter (· ≠ .control)
  /-- It takes messages in their turn. -/
  inTurn : InTurn line.connection line.queue account
  /-- It has written what it should. -/
  written : account.written = account.picked.filterMap Pickup.written?

theorem carries_start : Carries {} {} :=
  ⟨.down, .nil, rfl, .of_eq rfl, rfl⟩

/-- **Whatever happens, a line goes on to carry.** -/
theorem Carries.step {line : Line} (h : line.Carries account) (happening : Happening) :
    (line.step happening).1.Carries (account.followedBy (line.step happening).2) := by
  obtain ⟨change, wired⟩ := changes_step h.wired happening
  refine ⟨wired, change.visited h.visited, ?_, change.inTurn h.inTurn, ?_⟩
  · dsimp only [Account.followedBy]
    rw [List.filterMap_append, List.filter_append, h.carried, change.forwarded_frames]
  · dsimp only [Account.followedBy]
    rw [List.filterMap_append, h.written, change.written_eq]

theorem carries_run (happenings : List Happening) :
    (run {} happenings).1.Carries (run {} happenings).2 :=
  run_induction happenings carries_start fun _ _ happening h => h.step happening

theorem Wired.length_le {dials : Nat} {sockets : List Nat} (h : Wired c dials sockets) :
    dials + sockets.length ≤ 1 := by
  cases h <;> simp

/-- **A connection carries everything once and in order.** Whatever happens to a task that starts
without a socket:

* the events that it passes on are the beginning of some visits, each of which is a socket, texts
  and binary messages, and the end of the socket;
* the frames that these messages tell of are the texts and the bytes that were read from a socket
  while somebody listened, each once, as it came and in order;
* no second socket is open, nor is one dialled while there is a socket;
* the messages that it picks up are the first ones that it was given, each once and in order;
* and what it writes are these messages, each to the socket that was open when it was picked up,
  less those for which there was none or which could not be written to it. -/
theorem carries_once_in_order (happenings : List Happening) :
    (∃ read : List (List Event), (∀ messages ∈ read, AllMessages messages) ∧
        (run {} happenings).2.forwarded <+: visits read) ∧
      (run {} happenings).2.forwarded.filterMap Event.frame? =
        (run {} happenings).2.heard.filter (· ≠ .control) ∧
      (run {} happenings).1.dials + (run {} happenings).1.sockets.length ≤ 1 ∧
      (run {} happenings).2.picked.map Pickup.message <+: (run {} happenings).2.sent ∧
      (run {} happenings).2.written =
        (run {} happenings).2.picked.filterMap Pickup.written? := by
  have h := carries_run happenings
  exact ⟨h.visited.prefix_visits, h.carried, h.wired.length_le, h.inTurn.1, h.written⟩

/-- Two sockets, one after the other. A message waits until the first one is there, which brings a
text, a frame of its own and some bytes; another message comes when that socket is gone, and a third
one is written to the second socket. -/
theorem carries_over_two_sockets :
    ∃ account : Account, account = (run {} [.check, .send .cancel, .accepted, .pickUp true,
        .received (.text "queued"), .received .control, .received (.binary [1, 2]), .lost,
        .send (.request 1), .pickUp true, .check, .accepted, .send (.request 2), .pickUp true]).2 ∧
      account.heard = [.text "queued", .control, .binary [1, 2]] ∧
      account.forwarded.filterMap Event.frame? = [.text "queued", .binary [1, 2]] ∧
      account.forwarded =
        [.connected, .text "queued", .binary [1, 2], .disconnected, .connected] ∧
      account.picked.map Pickup.message <+: [.cancel, .request 1, .request 2] ∧
      account.written =
        [(some 0, ClientMessage.text .cancel), (some 1, ClientMessage.text (.request 2))] := by
  obtain ⟨-, hframes, -, hpicked, hwritten⟩ := carries_once_in_order [.check, .send .cancel,
    .accepted, .pickUp true, .received (.text "queued"), .received .control,
    .received (.binary [1, 2]), .lost, .send (.request 1), .pickUp true, .check, .accepted,
    .send (.request 2), .pickUp true]
  exact ⟨_, rfl, rfl, hframes.trans rfl, rfl, hpicked, hwritten.trans rfl⟩

end Line

end Deposition
