import Deposition.Proofs.Exchange.Basic

/-!
# What is left of a cancelled job

A job that is cancelled may still have messages on their way, up to the acknowledgement. A message
does not say which job it is about, so the session cannot tell them from those of the next job; what
keeps them away from it is that a new job is not submitted before the acknowledgement has arrived.

**It may be submitted earlier.** The flag that holds a submission back is cleared by *any* message,
and not only by the acknowledgement. If a message of the cancelled job arrives first, the next job
can be submitted at once, and what is left of the cancelled job then counts as its own: its
announcements are believed, its segments are appended, and its acknowledgement stops the new job
(`Deposition.Exchange.disturbed_of_late_messages`).

So whether a job is disturbed by one that was cancelled before it is decided when it is submitted,
and by one thing: whether the acknowledgement had been delivered
(`Deposition.Exchange.undisturbed_iff_acknowledged`). One direction is that the channel keeps the
order. The other is that an acknowledgement that is owed can always be brought to arrive, and then
stops whatever runs, if nothing before it has done so.
-/

namespace Deposition

/-- **What a message about another job must leave alone**: that the job runs, what is known of its
segments, and its frames. -/
structure Session.Undisturbed {σ : Type} (s s' : Session σ) : Prop where
  /-- The job is not stopped. -/
  running_eq : s'.running = s.running
  /-- The latest segment is the same. -/
  latest_eq : s'.flow.latest = s.flow.latest
  /-- The number of segments is the same. -/
  total_eq : s'.flow.total = s.flow.total
  /-- The job is complete if it was. -/
  complete_eq : s'.flow.complete = s.flow.complete
  /-- No frame is added. -/
  frames_eq : s'.trajectory.frames = s.trajectory.frames

namespace Exchange

variable {σ : Type} {x y z : Exchange σ} {job : Nat}

/-- **The current job is left in peace** by everything that the server sends up to the
acknowledgement of another one: whatever happens from here on, as long as no further job is
submitted, a message that is delivered and has no such acknowledgement before it does not disturb
the session. -/
def Undisturbed (job : Nat) (y : Exchange σ) : Prop :=
  ∀ z parcel, Steps y z → z.jobs = y.jobs → z.sent[z.heard]? = some parcel →
    .acknowledgement job ∉ z.sent.take z.heard →
    z.session.Undisturbed (z.session.handle parcel.event).1

/-- An acknowledgement stops a running job. -/
theorem running_handle_acknowledgement (s : Session σ) :
    (s.handle (Parcel.acknowledgement job).event).1.running = false := by
  have hp : ServerMessage.parse "cancel" = .ok .cancelled := rfl
  cases hr : s.running <;>
    simp [Parcel.event, Session.handle, Session.onText, hp, hr, Session.onMessage, Session.stopped]

/-! ### Bringing the acknowledgement about -/

/-- A cancellation on its way is acknowledged as soon as the server has taken what is before it, and
none of this is noticed by the session. -/
theorem exists_acknowledged {before behind : List ClientMessage} :
    ∀ {y : Exchange σ}, y.toServer = before ++ .cancel :: behind →
      y.received + submissions before = job →
      ∃ z, Steps y z ∧ z.session = y.session ∧ z.jobs = y.jobs ∧ z.heard = y.heard ∧
        .acknowledgement job ∈ z.sent := by
  induction before with
  | nil =>
    intro y hto hjob
    obtain rfl : y.received = job := by simpa [submissions] using hjob
    exact ⟨_, .single (.serve hto), rfl, rfl, rfl, by simp [serves]⟩
  | cons message before ih =>
    intro y hto hjob
    obtain ⟨z, steps, hsession, hjobs, hheard, hack⟩ :=
      ih (y := y.serves (before ++ .cancel :: behind) message) (by cases message <;> rfl)
        (by cases message <;> simp [serves, submissions] at hjob ⊢ <;> omega)
    refine ⟨z, .head (.serve hto) steps, hsession.trans ?_, hjobs.trans ?_, hheard.trans ?_,
      hack⟩ <;> cases message <;> rfl

/-- **One of the messages up to the acknowledgement disturbs a running job**: the acknowledgement
stops it, if no message before does. -/
theorem not_undisturbed_of_ahead {n : Nat} :
    ∀ {z : Exchange σ}, Steps y z → z.jobs = y.jobs → z.session.running = true →
      z.sent[z.heard + n]? = some (.acknowledgement job) →
      .acknowledgement job ∉ z.sent.take (z.heard + n) → ¬ y.Undisturbed job := by
  induction n with
  | zero =>
    intro z steps hjobs hr hack hnot peace
    have := (peace z _ steps hjobs hack hnot).running_eq
    rw [running_handle_acknowledgement, hr] at this
    cases this
  | succ n ih =>
    intro z steps hjobs hr hack hnot peace
    -- deliver the message in front: it leaves the job running, and the acknowledgement is closer
    obtain ⟨hlt, -⟩ := List.getElem?_eq_some_iff.mp hack
    have hparcel : z.sent[z.heard]? = some z.sent[z.heard] := List.getElem?_eq_getElem (by omega)
    have hnot' : .acknowledgement job ∉ z.sent.take z.heard := fun hmem =>
      hnot ((List.take_subset_take_left _ (by omega)) hmem)
    have hr' := (peace z _ steps hjobs hparcel hnot').running_eq.trans hr
    have hsum : z.heard + 1 + n = z.heard + (n + 1) := by omega
    refine ih (z := z.delivers z.sent[z.heard]) (steps.tail (.deliver hparcel)) hjobs hr'
      ?_ ?_ peace
    · simpa only [delivers, does, hsum] using hack
    · simpa only [delivers, does, hsum] using hnot

/-- A job that runs while a cancelled one is still to be acknowledged is not left in peace. -/
theorem not_undisturbed_of_owed (howed : y.Owed job) (hheard : y.heard ≤ y.sent.length)
    (hr : y.session.running = true) (hnot : .acknowledgement job ∉ y.delivered) :
    ¬ y.Undisturbed job := by
  obtain ⟨z, steps, hsession, hjobs, hheard', hack⟩ : ∃ z, Steps y z ∧ z.session = y.session ∧
      z.jobs = y.jobs ∧ z.heard = y.heard ∧ .acknowledgement job ∈ z.sent := by
    rcases howed with hack | ⟨before, behind, hto, hjob⟩
    · exact ⟨y, .refl, rfl, rfl, rfl, hack⟩
    · exact exists_acknowledged hto hjob
  have hnot' : .acknowledgement job ∉ z.sent.take z.heard := by
    obtain ⟨later, hsent⟩ := steps.grows.1
    rwa [hheard', ← hsent, List.take_append_of_le_length hheard]
  -- the first acknowledgement among all that was sent has not been delivered, so it is ahead
  obtain ⟨before, behind, hsent, hfirst⟩ := List.eq_append_cons_of_mem hack
  have hle : z.heard ≤ before.length := by
    by_contra hlt
    refine hnot' ?_
    rw [hsent, List.mem_take_iff_getElem]
    exact ⟨before.length, by simp; omega, by simp⟩
  have hsum : z.heard + (before.length - z.heard) = before.length := by omega
  refine not_undisturbed_of_ahead steps hjobs (hsession ▸ hr) (n := before.length - z.heard) ?_ ?_
  · rw [hsum, hsent]
    simp
  · rw [hsum, hsent, List.take_left]
    exact hfirst

/-! ### The condition -/

/-- **A cancelled job disturbs no later one exactly if it was acknowledged in time.** Let a job be
cancelled, and a later one be submitted. Nothing that the server sends up to the acknowledgement of
the cancelled job disturbs the later one, in whatever way things go on, if and only if that
acknowledgement had been delivered before the submission. -/
theorem undisturbed_iff_acknowledged {timing : Timing} (hx : Steps (start timing) x)
    (hjob : job ∈ x.cancelled) {c : Configuration} {step : Session σ × Effects σ}
    (hsubmit : x.session.submit c = .ok step) :
    (x.submits step).Undisturbed job ↔ .acknowledgement job ∈ x.delivered := by
  have sound := hx.sound
  constructor
  · intro peace
    by_contra hnot
    have howed : (x.submits step).Owed job := (sound.owed job hjob).does step
    refine not_undisturbed_of_owed howed sound.heard_le ?_ hnot peace
    obtain ⟨s, effects⟩ := step
    obtain ⟨rfl, -⟩ := Session.submit_eq_ok hsubmit
    rfl
  · -- what was delivered stays so, and no message is left that has no acknowledgement before it
    intro hack z parcel steps _ _ hnot
    have hdelivered := ((Steps.delivered_prefix (.single (.submit hsubmit))).trans
      steps.delivered_prefix).subset hack
    exact absurd hdelivered hnot

/-! ### A job that is disturbed -/

/-- **A submission that comes too early.** A job of three segments was announced, its first segment
asked for, and it was cancelled while two more announcements and the segment were on their way; the
first of these has arrived, and nothing holds a submission back. -/
def late (first second third : String) (buffer : Bytes) : Exchange Unit where
  session := { connected := true, flow := { latest := 1, total := 3, waiting := true } }
  jobs := 1
  cancelled := [1]
  toServer := [.cancel]
  received := 1
  sent := [.about 1 (.text first), .about 1 (.text second), .about 1 (.text third),
    .about 1 (.binary buffer)]
  heard := 2

/-- A message that is delivered, with what the session makes of it. -/
theorem Step.deliver_eq (parcel : Parcel) {s : Session σ} {messages : List ClientMessage}
    (hparcel : x.sent[x.heard]? = some parcel) (hs : (x.session.handle parcel.event).1 = s)
    (hmessages : (x.session.handle parcel.event).2.commands.filterMap Job.sent? = messages) :
    Step x { x with session := s, toServer := x.toServer ++ messages, heard := x.heard + 1 } := by
  subst hs hmessages
  exact .deliver hparcel

theorem steps_late {first second : String}
    (hfirst : ServerMessage.parse first = .ok (.newFrames ⟨1, 3⟩))
    (hsecond : ServerMessage.parse second = .ok (.newFrames ⟨2, 3⟩)) (third : String)
    (buffer : Bytes) :
    Steps (start {}) (late first second third buffer) := by
  obtain ⟨c, step, hsubmit⟩ : ∃ c step, (start {} : Exchange Unit).session.submit c = .ok step :=
    ⟨⟨[⟨"ETH", 1⟩], []⟩, _, rfl⟩
  have submitted : Steps (start {} : Exchange Unit)
      { session := { connected := true, running := true, pending := true }
        jobs := 1, received := 1 } :=
    .tail (.single (.submit_eq hsubmit)) (@Step.serve _ _ (.submit c.submissionText) [] rfl)
  have announced : Steps (start {} : Exchange Unit)
      { session := { connected := true, running := true, armed := true
                     flow := { latest := 1, total := 3, waiting := true } }
        jobs := 1, received := 1, sent := [.about 1 (.text first)], heard := 1 } :=
    submitted.tail (.say (Nat.le_refl 1) (Nat.le_refl 1) (by simp) rfl)
      |>.tail (.deliver_eq _ rfl
        (by simp only [Parcel.event, Session.handle, Session.onText, hfirst]; rfl)
        (by simp only [Parcel.event, Session.handle, Session.onText, hfirst]; rfl))
  have requested : Steps (start {} : Exchange Unit)
      { session := { connected := true, running := true
                     flow := { latest := 1, total := 3, waiting := true } }
        jobs := 1, received := 1, sent := [.about 1 (.text first)], heard := 1 } :=
    announced.tail (.timer .debounce) |>.tail (@Step.serve _ _ (.request 1) [] rfl)
  have sent : Steps (start {} : Exchange Unit)
      { session := { connected := true, running := true
                     flow := { latest := 1, total := 3, waiting := true } }
        jobs := 1, received := 1
        sent := [.about 1 (.text first), .about 1 (.text second), .about 1 (.text third),
          .about 1 (.binary buffer)]
        heard := 1 } :=
    requested.tail (.say (Nat.le_refl 1) (Nat.le_refl 1) (by simp) rfl)
      |>.tail (.say (Nat.le_refl 1) (Nat.le_refl 1) (by simp) rfl)
      |>.tail (.say (Nat.le_refl 1) (Nat.le_refl 1) (by simp) rfl)
  exact sent.tail (.cancel rfl) |>.tail (.deliver_eq _ rfl
    (by simp only [Parcel.event, Session.handle, Session.onText, hsecond]; rfl)
    (by simp only [Parcel.event, Session.handle, Session.onText, hsecond]; rfl))

/-- The condition where it fails: the job that is submitted there is not left in peace. -/
theorem not_undisturbed_of_early :
    ∃ (x : Exchange Unit) (c : Configuration) (step : Session Unit × Effects Unit),
      Steps (start {}) x ∧ 1 ∈ x.cancelled ∧ x.session.submit c = .ok step ∧
      ¬ (x.submits step).Undisturbed 1 := by
  obtain ⟨first, hfirst⟩ : ∃ text, ServerMessage.parse text = .ok (.newFrames ⟨1, 3⟩) :=
    ⟨"new_frames\x7b\"l\":1,\"f\":3\x7d", by cbv⟩
  obtain ⟨second, hsecond⟩ : ∃ text, ServerMessage.parse text = .ok (.newFrames ⟨2, 3⟩) :=
    ⟨"new_frames\x7b\"l\":2,\"f\":3\x7d", by cbv⟩
  have steps := steps_late hfirst hsecond "" []
  have hcancelled : 1 ∈ (late first second "" []).cancelled := by simp [late]
  have hsubmit : (late first second "" []).session.submit ⟨[⟨"ETH", 1⟩], []⟩ = .ok _ := rfl
  refine ⟨_, _, _, steps, hcancelled, hsubmit, fun peace => ?_⟩
  have hack := (undisturbed_iff_acknowledged steps hcancelled hsubmit).mp peace
  simp [delivered, late] at hack

/-- **What is left of a cancelled job counts as the next one's.** Before the server has received the
job that is submitted there, and with nothing sent but messages about the cancelled one, the new job
believes an announcement, has the frame of a segment, and is stopped. -/
theorem disturbed_of_late_messages :
    ∃ (x z : Exchange Unit) (c : Configuration) (step : Session Unit × Effects Unit),
      Steps (start {}) x ∧ 1 ∈ x.cancelled ∧ x.session.submit c = .ok step ∧
      Steps (x.submits step) z ∧ z.jobs = 2 ∧ z.received = 1 ∧
      z.session.flow.latest = 3 ∧ z.session.flow.total = 3 ∧ z.session.flow.complete = true ∧
      z.session.trajectory.frames = [[.origin]] ∧ z.session.running = false := by
  obtain ⟨first, hfirst⟩ : ∃ text, ServerMessage.parse text = .ok (.newFrames ⟨1, 3⟩) :=
    ⟨"new_frames\x7b\"l\":1,\"f\":3\x7d", by cbv⟩
  obtain ⟨second, hsecond⟩ : ∃ text, ServerMessage.parse text = .ok (.newFrames ⟨2, 3⟩) :=
    ⟨"new_frames\x7b\"l\":2,\"f\":3\x7d", by cbv⟩
  obtain ⟨third, hthird⟩ : ∃ text, ServerMessage.parse text = .ok (.newFrames ⟨3, 3⟩) :=
    ⟨"new_frames\x7b\"l\":3,\"f\":3\x7d", by cbv⟩
  obtain ⟨buffer, hsegment⟩ : ∃ buffer, Segment.decode buffer = .ok ⟨1, [7], [[.origin]]⟩ :=
    ⟨Segment.encode 1 [7] [[.origin]], rfl⟩
  obtain ⟨c, step, hsubmit⟩ : ∃ c step,
      (late first second third buffer).session.submit c = .ok step :=
    ⟨⟨[⟨"ETH", 1⟩], []⟩, _, rfl⟩
  have announced : Steps ((late first second third buffer).submits step)
      { late first second third buffer with
        session := { connected := true, running := true, armed := true
                     flow := { latest := 3, total := 3, waiting := true, complete := true } }
        jobs := 2, toServer := [.cancel, .submit c.submissionText], heard := 3 } := by
    rw [submits_eq hsubmit]
    exact .single (.deliver_eq (.about 1 (.text third)) rfl
      (by simp only [Parcel.event, Session.handle, Session.onText, hthird]; rfl)
      (by simp only [Parcel.event, Session.handle, Session.onText, hthird]; rfl))
  have appended : Steps ((late first second third buffer).submits step)
      { late first second third buffer with
        session := { connected := true, running := true, armed := true
                     flow := { next := 2, latest := 3, total := 3, waiting := true
                               complete := true }
                     trajectory := { species := some [7], frames := [[.origin]] } }
        jobs := 2, toServer := [.cancel, .submit c.submissionText], heard := 4 } :=
    announced.tail (.deliver_eq _ rfl
      (by simp only [Parcel.event, Session.handle, Session.onBinary, hsegment]; rfl)
      (by simp only [Parcel.event, Session.handle, Session.onBinary, hsegment]; rfl))
  have stopped := appended.tail (@Step.serve _ _ .cancel [.submit c.submissionText] rfl)
    |>.tail (.deliver rfl)
  exact ⟨_, _, c, step, steps_late hfirst hsecond third buffer, by simp [late], hsubmit, stopped,
    rfl, rfl, rfl, rfl, rfl, rfl, rfl⟩

end Exchange

end Deposition
