import Deposition.Proofs.Trajectory.Growth
import Deposition.Session.Basic

/-!
# What one event can do to a session

`Deposition.Session.handle` goes through half a dozen functions, and most of what is worth knowing
about a session holds because every one of them keeps it. This file takes the case analysis out of
those proofs: `Deposition.Session.Turn` lists the things that an event can do, with the condition
under which it does each, and `Deposition.Session.turn_handle` says that there are no others. A
property of sessions is from here on proved by one case for each constructor.

Two things are factored out.

* **What every event does.** A connection that comes or goes is noted, and any message answers a
  pending request. `Deposition.Session.noted` is the session after that, and a turn starts from it;
  none of the job's own fields is touched (`Deposition.Session.flow_noted` and its neighbours).
* **Looking at the download.** Three events end in `Deposition.Session.evaluate`, and
  `Deposition.Session.Look` lists its four outcomes.

What an event leaves in the log is no part of a turn.
-/

namespace Deposition

namespace Session

variable {σ : Type}

/-! ### What every event does -/

/-- The session after what an event does whatever its contents. -/
def noted (s : Session σ) : Event → Session σ
  | .connected => { s with connected := true }
  | .disconnected => { s with connected := false }
  | .text _ | .binary _ => { s with pending := false }
  | .timer _ => s

section Noted

variable (s : Session σ) (e : Event)

@[simp] theorem timing_noted : (s.noted e).timing = s.timing := by cases e <;> rfl

@[simp] theorem running_noted : (s.noted e).running = s.running := by cases e <;> rfl

@[simp] theorem failed_noted : (s.noted e).failed = s.failed := by cases e <;> rfl

@[simp] theorem analysisReady_noted : (s.noted e).analysisReady = s.analysisReady := by
  cases e <;> rfl

@[simp] theorem armed_noted : (s.noted e).armed = s.armed := by cases e <;> rfl

@[simp] theorem analysis_noted : (s.noted e).analysis = s.analysis := by cases e <;> rfl

@[simp] theorem flow_noted : (s.noted e).flow = s.flow := by cases e <;> rfl

@[simp] theorem trajectory_noted : (s.noted e).trajectory = s.trajectory := by cases e <;> rfl

end Noted

/-! ### Looking at the download -/

/-- **The outcomes of looking at the download of a running job**: the session afterwards, and what
has to be done. -/
inductive Look (s : Session σ) : Session σ → List Command → Prop
  /-- Everything announced is there, and more is to be announced. -/
  | caughtUp (h : s.flow.latest < s.flow.next) (hc : s.flow.complete = false) :
      Look s { s with flow := { s.flow with waiting := false } } []
  /-- Everything there will ever be is there. -/
  | finished (h : s.flow.latest < s.flow.next) (hc : s.flow.complete = true) :
      Look s { s.stopped with
          flow := { s.flow with waiting := false }
          analysis := s.trajectory.lastFrame?
          analysisReady := true } (cancelTimers ++ [.finished])
  /-- The next segment is in flight. -/
  | inFlight (h : s.flow.next ≤ s.flow.latest) (hw : s.flow.waiting = true) : Look s s []
  /-- The next segment is there to be asked for. -/
  | requested (h : s.flow.next ≤ s.flow.latest) (hw : s.flow.waiting = false) :
      Look s { s with flow := { s.flow with waiting := true }, armed := true }
        [.schedule .debounce s.timing.debounce, .schedule .retry s.timing.retry]

theorem look_evaluate {s : Session σ} (hr : s.running = true) :
    s.Look s.evaluate.1 s.evaluate.2.commands := by
  rw [evaluate, if_neg (by simp [hr]), Flow.evaluate]
  by_cases h : s.flow.latest < s.flow.next
  · rw [if_pos h]
    by_cases hc : s.flow.complete = true
    · rw [if_pos hc]
      exact .finished h hc
    · rw [if_neg hc]
      exact .caughtUp h (by simpa using hc)
  · rw [if_neg h]
    by_cases hw : s.flow.waiting = true
    · rw [if_pos hw]
      exact .inFlight (UInt32.not_lt.mp h) hw
    · rw [if_neg hw]
      exact .requested (UInt32.not_lt.mp h) (by simpa using hw)

/-- Looking at the download tells the sinks nothing. -/
@[simp] theorem notices_evaluate (s : Session σ) : s.evaluate.2.notices = [] := by
  unfold evaluate
  split
  · rfl
  · split <;> rfl

/-! ### Turns -/

/-- **The events that a session takes no notice of**, beyond what every event does. -/
inductive Ignores (s : Session σ) : Event → Prop
  /-- A connection leaves the job alone. -/
  | connected : Ignores s .connected
  /-- So does its loss. -/
  | disconnected : Ignores s .disconnected
  /-- No job is running. -/
  | resting {e : Event} (hr : s.running = false) : Ignores s e
  /-- A text that cannot be read. -/
  | malformed {text : String} {error : MessageError}
      (h : ServerMessage.parse text = .error error) : Ignores s (.text text)
  /-- The job waits for its turn. -/
  | queued {text : String} (h : ServerMessage.parse text = .ok .queued) : Ignores s (.text text)
  /-- A text that says nothing. -/
  | unknown {text content : String} (h : ServerMessage.parse text = .ok (.unknown content)) :
      Ignores s (.text text)
  /-- The server does not have a segment that is not in flight. -/
  | notReady {text : String} {id : UInt32}
      (h : ServerMessage.parse text = .ok (.segmentNotReady id))
      (he : s.flow.expects id = false) : Ignores s (.text text)
  /-- Bytes that are not the segment in flight, or do not belong to this job. -/
  | unwanted {buffer : Bytes}
      (h : ∀ segment, Segment.decode buffer = .ok segment →
        s.flow.expects segment.id = true → s.trajectory.mismatch? segment ≠ none) :
      Ignores s (.binary buffer)

/-- The session with one more segment. -/
def appending (s : Session σ) (segment : Segment) : Session σ :=
  { s with trajectory := s.trajectory.extend segment, flow := s.flow.received }

/-- What the sinks of a trajectory are told of a segment. -/
def announcements (t : Trajectory σ) (segment : Segment) : List (Notice σ) :=
  t.sinks.map fun sink => ⟨sink, .segment segment.id segment.species segment.frames⟩

/-- **Everything that an event can do to a session**, once it is noted: the session afterwards, what
has to be done, and what the sinks are told. -/
inductive Turn (s : Session σ) :
    Event → Session σ → List Command → List (Notice σ) → Prop
  /-- Nothing. -/
  | ignored {e : Event} (h : s.Ignores e) : Turn s e s [] []
  /-- Segments are announced. -/
  | announced {text : String} {available : Availability} {s' : Session σ}
      {commands : List Command} (hr : s.running = true)
      (h : ServerMessage.parse text = .ok (.newFrames available))
      (look : Look { s with flow := s.flow.announce available } s' commands) :
      Turn s (.text text) s' commands []
  /-- The segment in flight does not exist yet. -/
  | notReady {text : String} {id : UInt32} (hr : s.running = true)
      (h : ServerMessage.parse text = .ok (.segmentNotReady id))
      (he : s.flow.expects id = true) :
      Turn s (.text text) { s with flow := { s.flow with waiting := false } } [] []
  /-- The server has cancelled the job. -/
  | cancelled {text : String} (hr : s.running = true)
      (h : ServerMessage.parse text = .ok .cancelled) :
      Turn s (.text text) s.stopped cancelTimers []
  /-- The job has failed. -/
  | failed {text : String} (hr : s.running = true)
      (h : ServerMessage.parse text = .ok .failed) :
      Turn s (.text text) { s.stopped with failed := true } cancelTimers []
  /-- The segment in flight arrives. -/
  | accepted {buffer : Bytes} {segment : Segment} {s' : Session σ} {commands : List Command}
      (hr : s.running = true) (h : Segment.decode buffer = .ok segment)
      (he : s.flow.expects segment.id = true) (hm : s.trajectory.mismatch? segment = none)
      (look : Look (s.appending segment) s' commands) :
      Turn s (.binary buffer) s' (.cancelTimer .retry :: commands)
        (announcements s.trajectory segment)
  /-- The delay of a request is over. -/
  | delayOver (hr : s.running = true) :
      Turn s (.timer .debounce) { s with armed := false }
        (if s.armed && s.flow.waiting then [.send (.request s.flow.next)] else []) []
  /-- The segment in flight is asked for again. -/
  | askedAgain (hr : s.running = true) (hw : s.flow.waiting = true) :
      Turn s (.timer .retry) s
        [.send (.request s.flow.next), .schedule .retry s.timing.retry] []
  /-- Nothing is in flight when it is time to ask again. -/
  | lookedAgain {s' : Session σ} {commands : List Command} (hr : s.running = true)
      (hw : s.flow.waiting = false) (look : Look s s' commands) :
      Turn s (.timer .retry) s' commands []

theorem turn_onMessage {s : Session σ} {text : String} {message : ServerMessage}
    (hr : s.running = true) (h : ServerMessage.parse text = .ok message) :
    s.Turn (.text text) (s.onMessage message).1 (s.onMessage message).2.commands
      (s.onMessage message).2.notices := by
  cases message with
  | queued => exact .ignored (.queued h)
  | unknown content => exact .ignored (.unknown h)
  | cancelled => exact .cancelled hr h
  | failed => exact .failed hr h
  | newFrames available =>
    -- what is logged about the announcement is no part of the turn
    have look := look_evaluate (s := { s with flow := s.flow.announce available }) hr
    simpa [onMessage, noting, Effects.followedBy, Effects.note] using Turn.announced hr h look
  | segmentNotReady id =>
    cases he : s.flow.expects id with
    | false =>
      have hs : s.onMessage (.segmentNotReady id) = (s, {}) := by
        simp [onMessage, Flow.notReady, he]
      rw [hs]
      exact .ignored (.notReady h he)
    | true =>
      simp only [onMessage, Flow.notReady, he, if_true]
      exact .notReady hr h he

theorem turn_onText (s : Session σ) (text : String) :
    (s.noted (.text text)).Turn (.text text) (s.onText text).1 (s.onText text).2.commands
      (s.onText text).2.notices := by
  unfold onText
  dsimp only
  split
  · next error h => exact .ignored (.malformed h)
  · next message h =>
    split
    · next hr => exact turn_onMessage hr h
    · next hr =>
      split <;> exact .ignored (.resting (by simpa using hr))

theorem turn_accept {s : Session σ} {buffer : Bytes} {segment : Segment} (hr : s.running = true)
    (h : Segment.decode buffer = .ok segment) (he : s.flow.expects segment.id = true) :
    s.Turn (.binary buffer) (s.accept segment).1 (s.accept segment).2.commands
      (s.accept segment).2.notices := by
  unfold accept
  cases hm : s.trajectory.mismatch? segment with
  | some error =>
    rw [Trajectory.append_eq_error hm]
    refine .ignored (.unwanted fun segment' h' _ => ?_)
    obtain rfl : segment = segment' := by simpa [h] using h'
    simp [hm]
  | none =>
    rw [Trajectory.append_eq hm]
    have look := look_evaluate (s := s.appending segment) hr
    simpa [Effects.followedBy, appending, announcements] using Turn.accepted hr h he hm look

theorem turn_onBinary (s : Session σ) (buffer : Bytes) :
    (s.noted (.binary buffer)).Turn (.binary buffer) (s.onBinary buffer).1
      (s.onBinary buffer).2.commands (s.onBinary buffer).2.notices := by
  unfold onBinary
  dsimp only
  split
  · next hr => exact .ignored (.resting (by simpa using hr))
  · next hr =>
    split
    · next hw =>
      -- nothing is in flight, so no segment is expected, whatever the bytes are
      refine .ignored (.unwanted fun segment _ he => ?_)
      simp_all [Flow.expects]
    · split
      · next error h => exact .ignored (.unwanted fun segment h' => by simp [h] at h')
      · next segment h =>
        split
        · next he => exact turn_accept (by simpa using hr) h he
        · next he =>
          refine .ignored (.unwanted fun segment' h' he' => ?_)
          obtain rfl : segment = segment' := by simpa [h] using h'
          exact absurd he' he

theorem turn_onTimer (s : Session σ) (timer : Timer) :
    s.Turn (.timer timer) (s.onTimer timer).1 (s.onTimer timer).2.commands
      (s.onTimer timer).2.notices := by
  unfold onTimer
  split
  · next hr => exact .ignored (.resting (by simpa using hr))
  · next hr =>
    have hr : s.running = true := by simpa using hr
    cases timer with
    | debounce =>
      -- the two branches of the handler are one turn, which sends a request or does not
      have turn := Turn.delayOver hr
      dsimp only
      by_cases ha : (s.armed && s.flow.waiting) = true
      · rw [if_pos ha] at turn ⊢
        exact turn
      · rw [if_neg ha] at turn ⊢
        exact turn
    | retry =>
      dsimp only
      split
      · next hw => exact .askedAgain hr hw
      · next hw => simpa using Turn.lookedAgain hr (by simpa using hw) (look_evaluate hr)

/-- **A turn is all that an event brings about.** -/
theorem turn_handle (s : Session σ) (e : Event) :
    (s.noted e).Turn e (s.handle e).1 (s.handle e).2.commands (s.handle e).2.notices := by
  cases e with
  | connected => exact .ignored .connected
  | disconnected =>
    simp only [handle, onDisconnected]
    split <;> exact .ignored .disconnected
  | text text => exact turn_onText s text
  | binary buffer => exact turn_onBinary s buffer
  | timer timer => exact turn_onTimer s timer

/-- A session without a running job takes no turns. -/
theorem Turn.of_resting {s s' : Session σ} {e : Event} {commands : List Command}
    {notices : List (Notice σ)} (turn : s.Turn e s' commands notices) (hr : s.running = false) :
    s' = s ∧ commands = [] ∧ notices = [] := by
  cases turn <;> simp_all

/-- **No event starts a job.** -/
theorem running_of_handle {s : Session σ} {e : Event} (hr : (s.handle e).1.running = true) :
    s.running = true := by
  cases hrest : s.running with
  | true => rfl
  | false =>
    have hs := ((turn_handle s e).of_resting (by simpa using hrest)).1
    rw [hs, running_noted, hrest] at hr
    exact hr

/-! ### What is appended -/

/-- A look at the download leaves the trajectory alone. -/
theorem Look.trajectory_eq {s s' : Session σ} {commands : List Command}
    (look : s.Look s' commands) : s'.trajectory = s.trajectory := by
  cases look <;> rfl

/-- **The trajectory grows by a segment that arrives, or not at all**; and the sinks are told of it
exactly then. -/
theorem Turn.trajectory_cases {s s' : Session σ} {e : Event} {commands : List Command}
    {notices : List (Notice σ)} (turn : s.Turn e s' commands notices) :
    (s'.trajectory = s.trajectory ∧ notices = []) ∨
      ∃ buffer segment, e = .binary buffer ∧ Segment.decode buffer = .ok segment ∧
        s.trajectory.mismatch? segment = none ∧ s'.trajectory = s.trajectory.extend segment ∧
        notices = announcements s.trajectory segment := by
  cases turn with
  | accepted _ hd _ hm look => exact .inr ⟨_, _, rfl, hd, hm, look.trajectory_eq, rfl⟩
  | announced _ _ look => exact .inl ⟨look.trajectory_eq, rfl⟩
  | lookedAgain _ _ look => exact .inl ⟨look.trajectory_eq, rfl⟩
  | _ => exact .inl ⟨rfl, rfl⟩

/-! ### What is sent -/

/-- A look at the download sends nothing. -/
theorem Look.not_send {s s' : Session σ} {commands : List Command} (look : s.Look s' commands)
    (message : ClientMessage) : .send message ∉ commands := by
  cases look <;> simp [cancelTimers]

/-- **An event makes a session send nothing but requests**, each for the segment that comes next. -/
theorem Turn.eq_request {s s' : Session σ} {e : Event} {commands : List Command}
    {notices : List (Notice σ)} (turn : s.Turn e s' commands notices) {message : ClientMessage}
    (h : .send message ∈ commands) : message = .request s.flow.next := by
  cases turn with
  | announced _ _ look => exact absurd h (look.not_send message)
  | accepted _ _ _ _ look => exact absurd h (by simpa using look.not_send message)
  | lookedAgain _ _ look => exact absurd h (look.not_send message)
  | cancelled _ _ => simp [cancelTimers] at h
  | failed _ _ => simp [cancelTimers] at h
  | delayOver _ =>
    split at h
    · simpa using h
    · simp at h
  | askedAgain _ _ => simpa using h
  | ignored _ => simp at h
  | notReady _ _ _ => simp at h

end Session

end Deposition
