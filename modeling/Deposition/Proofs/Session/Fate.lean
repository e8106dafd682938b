import Deposition.Proofs.Session.Requests

/-!
# What becomes of a running job

An event either leaves a running job running or ends it, and a session shows in three places what
has become of its job: in the command that the job is finished, in the flags, and in the status.
Whoever runs a job looks at the first and the last of these, and the status hides things: a
connection that is down hides everything else, and a request that is unanswered hides that the job
has failed or was cancelled. `Deposition.Session.fate_handle` says that nothing is hidden that
matters. The messages by which the server ends a job arrive on a connection that is up, and they
answer the request that may be pending, so the status shows the failure, or that there is no job
any more; and everything else that ends a job is the arrival of its last segment, which is told
apart by the command.

What arrives is `Deposition.Session.arrival?`, and the trajectory grows by it
(`Deposition.Session.arrival_handle`).
-/

namespace Deposition

/-- An event is a text that says this. -/
def Event.Says (e : Event) (message : ServerMessage) : Prop :=
  ∃ text, e = .text text ∧ ServerMessage.parse text = .ok message

theorem Event.says_text_iff {text : String} {message : ServerMessage} :
    (Event.text text).Says message ↔ ServerMessage.parse text = .ok message := by
  constructor
  · rintro ⟨_, ⟨⟩, h⟩
    exact h
  · intro h
    exact ⟨text, rfl, h⟩

/-- Only a text says anything. -/
theorem Event.not_says {e : Event} (h : ∀ text, e ≠ .text text) (message : ServerMessage) :
    ¬ e.Says message := by
  rintro ⟨text, he, -⟩
  exact h text he

/-- What a text says is one thing. -/
theorem Event.Says.eq {e : Event} {message other : ServerMessage} (h : e.Says message)
    (hother : e.Says other) : message = other := by
  obtain ⟨text, rfl, hp⟩ := h
  rw [says_text_iff, hp] at hother
  cases hother
  rfl

namespace Session

variable {σ : Type} {s s' : Session σ} {e : Event} {commands : List Command}
  {notices : List (Notice σ)} {segment : Segment}

/-! ### What arrives -/

/-- The segment that an event brings and the session accepts, if there is one. -/
def arrival? (s : Session σ) (e : Event) : Option Segment :=
  match e with
  | .binary buffer =>
    if s.accepts (.event e) then (Segment.decode buffer).toOption else none
  | _ => none

theorem arrival?_eq_none (h : s.accepts (.event e) = false) : s.arrival? e = none := by
  cases e <;> simp [arrival?, h]

/-- **The trajectory grows by what arrives**, and the sinks are told of it; and if nothing arrives,
the trajectory stays as it is and they are told nothing. -/
theorem Turn.arrival (turn : s.Turn e s' commands notices) :
    (s.arrival? e = none ∧ s'.trajectory = s.trajectory ∧ notices = []) ∨
      ∃ segment, s.arrival? e = some segment ∧ s.trajectory.mismatch? segment = none ∧
        s'.trajectory = s.trajectory.extend segment ∧
        notices = announcements s.trajectory segment := by
  cases turn with
  | ignored h => exact .inl ⟨arrival?_eq_none h.accepts_eq_false, rfl, rfl⟩
  | accepted hr hd he hm look =>
    refine .inr ⟨_, ?_, hm, look.trajectory_eq, rfl⟩
    simp [arrival?, accepts, hd, hr, he, hm, Except.toOption]
  | announced _ _ look | lookedAgain _ _ look => exact .inl ⟨rfl, look.trajectory_eq, rfl⟩
  | _ => exact .inl ⟨rfl, rfl, rfl⟩

theorem arrival_handle (s : Session σ) (e : Event) :
    (s.arrival? e = none ∧ (s.handle e).1.trajectory = s.trajectory ∧
        (s.handle e).2.notices = []) ∨
      ∃ segment, s.arrival? e = some segment ∧ s.trajectory.mismatch? segment = none ∧
        (s.handle e).1.trajectory = s.trajectory.extend segment ∧
        (s.handle e).2.notices = announcements s.trajectory segment := by
  have harrival : (s.noted e).arrival? e = s.arrival? e := by
    cases e <;> simp [arrival?]
  simpa [harrival] using (turn_handle s e).arrival

/-! ### What the connection is -/

theorem Look.connected_eq (look : s.Look s' commands) : s'.connected = s.connected := by
  cases look <;> rfl

theorem Turn.connected_eq (turn : s.Turn e s' commands notices) :
    s'.connected = s.connected := by
  cases turn with
  | announced _ _ look | accepted _ _ _ _ look | lookedAgain _ _ look => exact look.connected_eq
  | _ => rfl

/-- Nothing but an event of the connection tells a session whether there is one. -/
theorem connected_handle (s : Session σ) (e : Event) :
    (s.handle e).1.connected = (s.noted e).connected :=
  (turn_handle s e).connected_eq

/-! ### What becomes of the job -/

/-- **The fates of a running job** when an event is handled. -/
inductive Fate (e : Event) (s' : Session σ) (commands : List Command) : Prop
  /-- It goes on. -/
  | goesOn (hr : s'.running = true) (hfinished : .finished ∉ commands)
      (hfailed : ¬ e.Says .failed) (hcancelled : ¬ e.Says .cancelled)
  /-- It is done, and its last frame is there to be analysed. -/
  | done (hfinished : .finished ∈ commands) (hanalysis : s'.analysis = s'.trajectory.lastFrame?)
      (hfailed : ¬ e.Says .failed) (hcancelled : ¬ e.Says .cancelled)
  /-- It has failed, and the status says so. -/
  | failed (h : e.Says .failed) (hr : s'.running = false) (hfinished : .finished ∉ commands)
      (hstatus : s'.status = .failed)
  /-- It is cancelled, and the status is that of a session without a job. -/
  | cancelled (h : e.Says .cancelled) (hr : s'.running = false) (hfinished : .finished ∉ commands)
      (hstatus : s'.status = .idle)

/-- After a look at the download a running job is done or goes on. -/
theorem Look.fate (look : s.Look s' commands) (hr : s.running = true)
    (hfailed : ¬ e.Says .failed) (hcancelled : ¬ e.Says .cancelled) : Fate e s' commands := by
  cases look with
  | finished _ _ => exact .done (by simp) rfl hfailed hcancelled
  | caughtUp _ _ | inFlight _ _ => exact .goesOn hr (by simp) hfailed hcancelled
  | requested _ _ => exact .goesOn hr (by simp) hfailed hcancelled

theorem Fate.cancelTimer (fate : Fate e s' commands) (timer : Timer) :
    Fate e s' (.cancelTimer timer :: commands) := by
  cases fate with
  | goesOn hr hf hfailed hcancelled => exact .goesOn hr (by simpa using hf) hfailed hcancelled
  | done hf hanalysis hfailed hcancelled => exact .done (by simp [hf]) hanalysis hfailed hcancelled
  | failed h hr hf hstatus => exact .failed h hr (by simpa using hf) hstatus
  | cancelled h hr hf hstatus => exact .cancelled h hr (by simpa using hf) hstatus

/-- **What a turn makes of a running job**, if messages arrive on a connection only and have
answered the pending request. -/
theorem Turn.fate (turn : s.Turn e s' commands notices) (h : s.Coherent) (hr : s.running = true)
    (hup : ∀ text, e = .text text → s.connected = true ∧ s.pending = false) :
    Fate e s' commands := by
  have hnot (h : ∀ text, e ≠ .text text) : ¬ e.Says .failed ∧ ¬ e.Says .cancelled :=
    ⟨Event.not_says h _, Event.not_says h _⟩
  cases turn with
  | ignored hi =>
    have hsays : ¬ e.Says .failed ∧ ¬ e.Says .cancelled := by
      cases hi with
      | connected | disconnected | unwanted _ => exact hnot (by simp)
      | resting hrest => simp [hr] at hrest
      | malformed hp | queued hp | unknown hp | notReady hp _ => simp [Event.says_text_iff, hp]
    exact .goesOn hr (by simp) hsays.1 hsays.2
  | announced _ hp look =>
    exact look.fate hr (by simp [Event.says_text_iff, hp]) (by simp [Event.says_text_iff, hp])
  | notReady _ hp _ =>
    exact .goesOn hr (by simp) (by simp [Event.says_text_iff, hp])
      (by simp [Event.says_text_iff, hp])
  | cancelled _ hp =>
    -- there is a connection and no request, so that nothing hides what becomes of the job
    obtain ⟨hconnected, hpending⟩ := hup _ rfl
    refine .cancelled (Event.says_text_iff.mpr hp) rfl (by simp [cancelTimers]) ?_
    simp [status, JobStatus.derive, stopped, hconnected, hpending, h.failed_eq_false hr,
      h.analysisReady_eq_false hr]
  | failed _ hp =>
    obtain ⟨hconnected, hpending⟩ := hup _ rfl
    refine .failed (Event.says_text_iff.mpr hp) rfl (by simp [cancelTimers]) ?_
    simp [status, JobStatus.derive, stopped, hconnected, hpending]
  | accepted _ _ _ _ look =>
    have hsays := hnot (by simp)
    exact (look.fate hr hsays.1 hsays.2).cancelTimer .retry
  | delayOver _ =>
    have hsays := hnot (by simp)
    refine .goesOn hr ?_ hsays.1 hsays.2
    split <;> simp
  | askedAgain _ _ =>
    have hsays := hnot (by simp)
    exact .goesOn hr (by simp) hsays.1 hsays.2
  | lookedAgain _ _ look =>
    have hsays := hnot (by simp)
    exact look.fate hr hsays.1 hsays.2

theorem fate_handle (h : s.Coherent) (hr : s.running = true)
    (hup : ∀ text, e = .text text → s.connected = true) :
    Fate e (s.handle e).1 (s.handle e).2.commands := by
  refine (turn_handle s e).fate (h.noted e) (by simpa using hr) ?_
  rintro text rfl
  exact ⟨hup text rfl, rfl⟩

end Session

end Deposition
