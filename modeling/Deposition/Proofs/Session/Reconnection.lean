import Deposition.Proofs.Session.Run
import Deposition.Proofs.Session.Turn

/-!
# The loss of a connection

A connection may be lost at any time and come back at any time, and a job is to survive it: nothing
of the download moves, and when there is a connection again the request that was in flight is made
again. That this is so is a statement about two runs. In one of them connections come and go; the
other one has the same events but for those, or with others of them in other places; and whatever
the two are, each of the remaining events is answered in the same way in both
(`Deposition.Session.connection_moves_nothing`).

The two runs go through sessions that differ in one flag, `Deposition.Session.withConnection`, and
what has to be shown is that nobody looks at it: each function that handles an event commutes with a
change of the flag. Only what a *user* does – to submit a job, or to cancel it – depends on whether
there is a connection.
-/

namespace Deposition

/-- Whether an event is about the connection alone. -/
def Event.isOfConnection : Event → Bool
  | .connected | .disconnected => true
  | .text _ | .binary _ | .timer _ => false

/-- The events that remain when connections no longer come and go. -/
def withoutConnection (es : List Event) : List Event := es.filter fun e => !e.isOfConnection

theorem withoutConnection_cons_of_connection {e : Event} (he : e.isOfConnection = true)
    (es : List Event) : withoutConnection (e :: es) = withoutConnection es := by
  simp [withoutConnection, he]

theorem withoutConnection_cons {e : Event} (he : e.isOfConnection = false) (es : List Event) :
    withoutConnection (e :: es) = e :: withoutConnection es := by
  simp [withoutConnection, he]

namespace Session

variable {σ : Type} {s : Session σ} {e : Event} {es es' : List Event}

/-- The session with or without a connection. -/
def withConnection (s : Session σ) (connected : Bool) : Session σ := { s with connected }

/-! ### Nobody looks at the connection -/

theorem evaluate_withConnection (s : Session σ) (b : Bool) :
    (s.withConnection b).evaluate = (s.evaluate.1.withConnection b, s.evaluate.2) := by
  unfold evaluate withConnection
  dsimp only
  split
  · rfl
  · split <;> rfl

theorem onMessage_withConnection (s : Session σ) (b : Bool) (message : ServerMessage) :
    (s.withConnection b).onMessage message =
      ((s.onMessage message).1.withConnection b, (s.onMessage message).2) := by
  cases message with
  | newFrames available =>
    -- what is noted about the announcement stands before the look at the download
    exact congrArg (noting _)
      (evaluate_withConnection { s with flow := s.flow.announce available } b)
  | queued | segmentNotReady | cancelled | failed | unknown => rfl

theorem onText_withConnection (s : Session σ) (b : Bool) (text : String) :
    (s.withConnection b).onText text =
      ((s.onText text).1.withConnection b, (s.onText text).2) := by
  unfold onText withConnection
  dsimp only
  split
  · rfl
  · next message _ =>
    split
    · exact onMessage_withConnection { s with pending := false } b message
    · split <;> rfl

theorem accept_withConnection (s : Session σ) (b : Bool) (segment : Segment) :
    (s.withConnection b).accept segment =
      ((s.accept segment).1.withConnection b, (s.accept segment).2) := by
  unfold accept withConnection
  dsimp only
  split
  · rfl
  · next trajectory notices _ =>
    exact congrArg (fun step : Session σ × Effects σ => (step.1, Effects.followedBy _ step.2))
      (evaluate_withConnection { s with trajectory, flow := s.flow.received } b)

theorem onBinary_withConnection (s : Session σ) (b : Bool) (buffer : Bytes) :
    (s.withConnection b).onBinary buffer =
      ((s.onBinary buffer).1.withConnection b, (s.onBinary buffer).2) := by
  unfold onBinary withConnection
  dsimp only
  split
  · rfl
  · split
    · rfl
    · split
      · rfl
      · next segment _ =>
        split
        · exact accept_withConnection { s with pending := false } b segment
        · rfl

theorem onTimer_withConnection (s : Session σ) (b : Bool) (timer : Timer) :
    (s.withConnection b).onTimer timer =
      ((s.onTimer timer).1.withConnection b, (s.onTimer timer).2) := by
  unfold onTimer withConnection
  dsimp only
  split
  · rfl
  · cases timer with
    | debounce => rfl
    | retry =>
      dsimp only
      split
      · rfl
      · exact evaluate_withConnection s b

/-- **An event is answered in the same way with and without a connection**, unless it is about the
connection. -/
theorem handle_withConnection (s : Session σ) (b : Bool) (he : e.isOfConnection = false) :
    (s.withConnection b).handle e = ((s.handle e).1.withConnection b, (s.handle e).2) := by
  cases e with
  | connected | disconnected => cases he
  | text text => exact onText_withConnection s b text
  | binary buffer => exact onBinary_withConnection s b buffer
  | timer timer => exact onTimer_withConnection s b timer

/-- **A connection that comes or goes** changes nothing else, and makes nobody do anything. -/
theorem handle_of_connection (s : Session σ) (he : e.isOfConnection = true) :
    (∃ b, (s.handle e).1 = s.withConnection b) ∧ (s.handle e).2.commands = [] ∧
      (s.handle e).2.notices = [] := by
  cases e with
  | connected => exact ⟨⟨true, rfl⟩, rfl, rfl⟩
  | disconnected =>
    refine ⟨⟨false, rfl⟩, ?_⟩
    dsimp only [handle, onDisconnected]
    split <;> exact ⟨rfl, rfl⟩
  | text | binary | timer => cases he

/-! ### Two runs -/

/-- The events of a run, each with what it brings about. -/
def answers (s : Session σ) : List Event → List (Event × Effects σ)
  | [] => []
  | e :: es => (e, (s.handle e).2) :: (s.handle e).1.answers es

/-- The answers to the events that are not about the connection. -/
def jobAnswers (s : Session σ) (es : List Event) : List (Event × Effects σ) :=
  (s.answers es).filter fun answer => !answer.1.isOfConnection

theorem jobAnswers_cons_of_connection (s : Session σ) (he : e.isOfConnection = true)
    (es : List Event) : s.jobAnswers (e :: es) = (s.handle e).1.jobAnswers es := by
  simp [jobAnswers, answers, he]

theorem jobAnswers_cons (s : Session σ) (he : e.isOfConnection = false) (es : List Event) :
    s.jobAnswers (e :: es) = (e, (s.handle e).2) :: (s.handle e).1.jobAnswers es := by
  simp [jobAnswers, answers, he]

/-- The events of a run, as things that are done to a session. -/
def handled (es : List Event) : List (Deed σ) := es.map .event

theorem run_handled_cons (s : Session σ) (e : Event) (es : List Event) :
    (s.run (handled (e :: es))).1 = ((s.handle e).1.run (handled es)).1 := rfl

/-- **A run answers as the run without its connections**, whether or not there is one at the
start. -/
theorem jobAnswers_withoutConnection (s : Session σ) (b : Bool) (es : List Event) :
    (s.withConnection b).jobAnswers es = s.jobAnswers (withoutConnection es) := by
  induction es generalizing s b with
  | nil => rfl
  | cons e es ih =>
    cases he : e.isOfConnection with
    | true =>
      obtain ⟨⟨b', hs⟩, -⟩ := handle_of_connection (s.withConnection b) he
      rw [jobAnswers_cons_of_connection _ he, withoutConnection_cons_of_connection he, hs]
      exact ih s b'
    | false =>
      rw [jobAnswers_cons _ he, withoutConnection_cons he, jobAnswers_cons _ he,
        handle_withConnection s b he]
      exact congrArg _ (ih (s.handle e).1 b)

/-- **It also ends where that run ends**, but for the connection. -/
theorem run_withoutConnection (s : Session σ) (b : Bool) (es : List Event) :
    ∃ b', ((s.withConnection b).run (handled es)).1 =
      (s.run (handled (withoutConnection es))).1.withConnection b' := by
  induction es generalizing s b with
  | nil => exact ⟨b, rfl⟩
  | cons e es ih =>
    rw [run_handled_cons]
    cases he : e.isOfConnection with
    | true =>
      obtain ⟨⟨b', hs⟩, -⟩ := handle_of_connection (s.withConnection b) he
      rw [withoutConnection_cons_of_connection he, hs]
      exact ih s b'
    | false =>
      rw [withoutConnection_cons he, run_handled_cons, handle_withConnection s b he]
      exact ih (s.handle e).1 b

/-- The segment in flight is asked for again when it is time, connection or not. -/
theorem commands_retry_withConnection (b : Bool) (hr : s.running = true)
    (hw : s.flow.waiting = true) :
    ((s.withConnection b).handle (.timer .retry)).2.commands =
      [.send (.request s.flow.next), .schedule .retry s.timing.retry] := by
  rw [handle_withConnection s b rfl]
  simp [handle, onTimer, hr, hw]

/-- **Losing the connection moves nothing.** Take a session, and two lists of events that are the
same but for the connections that come and go in them. Then the other events are answered in the
same way in both runs, and at the end the sessions are the same in everything but whether there is
a connection. In particular, when it is time to ask again after the connection has come and gone
any number of times, the segment that was in flight is asked for. -/
theorem connection_moves_nothing (s : Session σ)
    (h : withoutConnection es = withoutConnection es') :
    s.jobAnswers es = s.jobAnswers es' ∧
      (∃ connected, (s.run (handled es')).1 = { (s.run (handled es)).1 with connected }) ∧
      ∀ reconnects, withoutConnection reconnects = [] → s.running = true →
        s.flow.waiting = true →
          ((s.run (handled reconnects)).1.handle (.timer .retry)).2.commands =
            [.send (.request s.flow.next), .schedule .retry s.timing.retry] := by
  have hself : s = s.withConnection s.connected := rfl
  refine ⟨?_, ?_, fun reconnects hnone hr hw => ?_⟩
  · rw [hself, jobAnswers_withoutConnection, jobAnswers_withoutConnection, h]
  · obtain ⟨b, hb⟩ := run_withoutConnection s s.connected es
    obtain ⟨b', hb'⟩ := run_withoutConnection s s.connected es'
    rw [← hself] at hb hb'
    exact ⟨b', by rw [hb, hb', h]; rfl⟩
  · obtain ⟨b, hb⟩ := run_withoutConnection s s.connected reconnects
    rw [← hself, hnone] at hb
    rw [hb]
    exact commands_retry_withConnection b hr hw

/-- A job that waits for its first segment loses the connection twice. In the meantime it is time to
ask again, and the segment arrives only afterwards; the second one is then asked for as it would
have been if the connection had stayed. -/
theorem connection_moves_nothing_of_twoLosses :
    ∃ (history : List (Deed Unit)) (s : Session Unit) (told : Effects Unit) (one : Bytes)
      (es es' : List Event),
      run {} history = (s, told) ∧ s.flow.next = 1 ∧ s.flow.waiting = true ∧
      Segment.decode one = .ok ⟨1, [7], [[.origin]]⟩ ∧
      es = [.disconnected, .timer .retry, .connected, .disconnected, .connected, .binary one,
        .timer .debounce] ∧
      es' = [.timer .retry, .binary one, .timer .debounce] ∧
      s.jobAnswers es = s.jobAnswers es' ∧
      (s.run (handled es)).1.flow = (s.run (handled es')).1.flow ∧
      (s.run (handled es)).1.trajectory = (s.run (handled es')).1.trajectory ∧
      ((s.run (handled [.disconnected, .connected])).1.handle (.timer .retry)).2.commands =
        [.send (.request 1), .schedule .retry s.timing.retry] := by
  obtain ⟨one, hone⟩ : ∃ buffer, Segment.decode buffer = .ok ⟨1, [7], [[.origin]]⟩ :=
    ⟨Segment.encode 1 [7] [[.origin]], rfl⟩
  obtain ⟨text, hp⟩ : ∃ text, ServerMessage.parse text = .ok (.newFrames ⟨2, 3⟩) :=
    ⟨"new_frames\x7b\"l\":2,\"f\":3\x7d", by cbv⟩
  let history : List (Deed Unit) :=
    [.event .connected, .submit ⟨[⟨"ETH", 1⟩], []⟩, .event (.text text)]
  obtain ⟨s, told, hrun, hr, hnext, hw⟩ : ∃ s told, run {} history = (s, told) ∧
      s.running = true ∧ s.flow.next = 1 ∧ s.flow.waiting = true := by
    refine ⟨(run {} history).1, (run {} history).2, rfl, ?_⟩
    simp only [history, run_cons, Session.perform, Session.handle, onText, hp]
    exact ⟨rfl, rfl, rfl⟩
  have hremain : withoutConnection [.disconnected, .timer .retry, .connected, .disconnected,
      .connected, .binary one, .timer .debounce] =
        withoutConnection [.timer .retry, .binary one, .timer .debounce] := rfl
  obtain ⟨hanswers, ⟨connected, hsame⟩, hretry⟩ := connection_moves_nothing s hremain
  have hagain := hretry [.disconnected, .connected] rfl hr hw
  rw [hnext] at hagain
  refine ⟨history, s, told, one, _, _, hrun, hnext, hw, hone, rfl, rfl, hanswers, ?_, ?_, hagain⟩
  · rw [hsame]
  · rw [hsame]

end Session

end Deposition
