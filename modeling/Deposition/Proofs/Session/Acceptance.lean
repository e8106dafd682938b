import Deposition.Proofs.Session.Coherence

/-!
# What moves a job on

A job moves on by one kind of message: the segment that it waits for. On the way to being accepted a
buffer has to pass five tests – a job runs, a request is in flight, the buffer can be read, its
segment is the next one, and it has the species of the job – and they are made in different places,
between changes of the session. `Deposition.Session.Awaits` is the conjunction of the five, and it
is all or nothing: a buffer that passes them moves the job on by one segment
(`Deposition.Session.Advanced`), and one that fails any of them, first or last, leaves everything as
it was (`Deposition.Session.Untouched`).

Every message that arrives is an answer, whatever it says, so that no request is pending after it.
That is the one change that the other messages make, and it is the one that `Untouched` allows.

An announcement does change what is known of the download. But while a request is in flight it
cannot set another one going: what is in flight was announced before, so it is still within what is
announced now, and the look at the download finds nothing to do
(`Deposition.Session.Turn.of_announced_waiting`). This is where the session has to be one that can
come about.
-/

namespace Deposition

namespace Session

variable {σ : Type} {s s' : Session σ} {buffer : Bytes} {text : String} {segment : Segment}
  {available : Availability} {commands : List Command} {notices : List (Notice σ)}

/-- **The segment that a job waits for** is in a buffer. -/
structure Awaits (s : Session σ) (buffer : Bytes) (segment : Segment) : Prop where
  /-- A job is running. -/
  running : s.running = true
  /-- A request is in flight. -/
  waiting : s.flow.waiting = true
  /-- The buffer can be read. -/
  decode_eq : Segment.decode buffer = .ok segment
  /-- The segment is the next one. -/
  id_eq : segment.id = s.flow.next
  /-- It has the species of the job, unless the job has none yet. -/
  species : s.trajectory.species = none ∨ s.trajectory.species = some segment.species

/-- **A message has left everything as it was**, but for the request that it may have answered. -/
structure Untouched (s : Session σ) (step : Session σ × Effects σ) : Prop where
  /-- The session is as before. -/
  session_eq : step.1 = { s with pending := false }
  /-- Nothing has to be done. -/
  commands_eq : step.2.commands = []
  /-- No sink is told anything. -/
  notices_eq : step.2.notices = []

/-- **A job has moved on** by one segment. -/
structure Advanced (s : Session σ) (segment : Segment) (step : Session σ × Effects σ) : Prop where
  /-- The frames of the segment are appended. -/
  frames_eq : step.1.trajectory.frames = s.trajectory.frames ++ segment.frames
  /-- The job has its species. -/
  species_eq : step.1.trajectory.species = some segment.species
  /-- Those who follow the job still do. -/
  sinks_eq : step.1.trajectory.sinks = s.trajectory.sinks
  /-- Each of them is told once. -/
  notices_eq : step.2.notices = s.trajectory.sinks.map fun sink =>
    ⟨sink, .segment segment.id segment.species segment.frames⟩
  /-- The next segment is the one after it, if there is an id for it. -/
  next_eq : s.flow.next.toNat < maxWord → step.1.flow.next.toNat = s.flow.next.toNat + 1
  /-- The timer of the request is stopped first; then the download is looked at. -/
  look : ∃ more, step.2.commands = .cancelTimer .retry :: more ∧
    ({ s with pending := false }.appending segment).Look step.1 more

theorem mismatch?_eq_none_iff_species : s.trajectory.mismatch? segment = none ↔
    s.trajectory.species = none ∨ s.trajectory.species = some segment.species := by
  rw [Trajectory.mismatch?_eq_none_iff]
  cases s.trajectory.species <;> simp

theorem Look.next_eq (look : s.Look s' commands) : s'.flow.next = s.flow.next := by
  cases look <;> rfl

/-! ### Buffers -/

/-- **What a buffer can do to a session**: it brings the segment that is awaited, or it does
nothing. -/
theorem Turn.of_binary (turn : s.Turn (.binary buffer) s' commands notices) :
    (s' = s ∧ commands = [] ∧ notices = [] ∧ ∀ segment, ¬ s.Awaits buffer segment) ∨
      ∃ segment more, s.Awaits buffer segment ∧ (s.appending segment).Look s' more ∧
        commands = .cancelTimer .retry :: more ∧ notices = announcements s.trajectory segment := by
  cases turn with
  | ignored h =>
    refine .inl ⟨rfl, rfl, rfl, fun segment awaits => ?_⟩
    cases h with
    | resting hr => simp [awaits.running] at hr
    | unwanted h =>
      exact h segment awaits.decode_eq (Flow.expects_iff.mpr ⟨awaits.waiting, awaits.id_eq⟩)
        (mismatch?_eq_none_iff_species.mpr awaits.species)
  | accepted hr hd he hm look =>
    obtain ⟨hw, hid⟩ := Flow.expects_iff.mp he
    exact .inr ⟨_, _, ⟨hr, hw, hd, hid, mismatch?_eq_none_iff_species.mp hm⟩, look, rfl, rfl⟩

/-- Whether a request is pending makes no difference to it. -/
theorem awaits_noted_iff :
    (s.noted (.binary buffer)).Awaits buffer segment ↔ s.Awaits buffer segment := by
  constructor <;> rintro ⟨hrunning, hwaiting, hdecode, hid, hspecies⟩
  · exact ⟨hrunning, hwaiting, hdecode, hid, hspecies⟩
  · exact ⟨hrunning, hwaiting, hdecode, hid, hspecies⟩

/-- A buffer moves the job on by the segment that is awaited. -/
theorem Awaits.advanced (awaits : s.Awaits buffer segment) :
    s.Advanced segment (s.onBinary buffer) := by
  rcases (turn_onBinary s buffer).of_binary with ⟨-, -, -, hnot⟩ | ⟨found, more, h, look, hc, hn⟩
  · exact absurd (awaits_noted_iff.mpr awaits) (hnot segment)
  · obtain rfl : segment = found := Except.ok.inj (awaits.decode_eq.symm.trans h.decode_eq)
    have htrajectory : (s.onBinary buffer).1.trajectory = s.trajectory.extend segment :=
      look.trajectory_eq
    refine ⟨?_, ?_, ?_, hn, fun hlt => ?_, more, hc, look⟩
    · rw [htrajectory, Trajectory.extend]
    · rw [htrajectory, Trajectory.extend]
    · rw [htrajectory, Trajectory.extend]
    · have hnext : (s.onBinary buffer).1.flow.next = s.flow.received.next := look.next_eq
      rw [hnext, Flow.toNat_next_received]
      omega

/-- Any other buffer leaves everything as it was. -/
theorem untouched_onBinary (h : ∀ segment, ¬ s.Awaits buffer segment) :
    s.Untouched (s.onBinary buffer) := by
  rcases (turn_onBinary s buffer).of_binary with ⟨hs, hc, hn, -⟩ | ⟨segment, -, awaits, -⟩
  · exact ⟨hs, hc, hn⟩
  · exact absurd (awaits_noted_iff.mp awaits) (h segment)

/-! ### Texts -/

/-- A text that a session takes no notice of does nothing. -/
theorem Turn.of_ignored (turn : s.Turn (.text text) s' commands notices)
    (h : s.Ignores (.text text)) : s' = s ∧ commands = [] ∧ notices = [] := by
  cases turn with
  | ignored _ => exact ⟨rfl, rfl, rfl⟩
  | announced hr hp _ | cancelled hr hp | failed hr hp => cases h <;> simp_all
  | notReady hr hp he => cases h <;> simp_all

theorem Ignores.noted {e : Event} (h : s.Ignores e) : (s.noted e).Ignores e := by
  cases h with
  | connected => exact .connected
  | disconnected => exact .disconnected
  | resting hr => exact .resting (by simpa using hr)
  | malformed hp => exact .malformed hp
  | queued hp => exact .queued hp
  | unknown hp => exact .unknown hp
  | notReady hp he => exact .notReady hp he
  | unwanted h => exact .unwanted h

theorem Ignores.untouched (h : s.Ignores (.text text)) : s.Untouched (s.onText text) := by
  obtain ⟨hs, hc, hn⟩ := (turn_onText s text).of_ignored h.noted
  exact ⟨hs, hc, hn⟩

/-- **An announcement sets nothing going while a request is in flight.** -/
theorem Turn.of_announced_waiting (turn : s.Turn (.text text) s' commands notices)
    (h : s.Coherent) (hp : ServerMessage.parse text = .ok (.newFrames available))
    (hw : s.flow.waiting = true) :
    commands = [] ∧ notices = [] ∧ s'.flow.waiting = true ∧ s'.flow.next = s.flow.next ∧
      s'.armed = s.armed := by
  cases turn with
  | ignored _ => exact ⟨rfl, rfl, hw, rfl, rfl⟩
  | notReady _ hp' _ | cancelled _ hp' | failed _ hp' => simp [hp] at hp'
  | announced hr hp' look =>
    -- what is in flight was announced, and what is announced never moves back
    have hle := UInt32.le_iff_toNat_le.mp (h.waiting_le hw)
    generalize hs : ({ s with flow := s.flow.announce _ } : Session σ) = u at look
    have hlatest : ¬ u.flow.latest < u.flow.next := by
      rw [← hs, UInt32.lt_iff_toNat_lt, Flow.toNat_latest_announce, Flow.next_announce]
      omega
    cases look with
    | caughtUp h _ | finished h _ => exact absurd h hlatest
    | inFlight _ _ => subst hs; exact ⟨rfl, rfl, hw, rfl, rfl⟩
    | requested _ hidle => subst hs; simp [hw] at hidle

/-- **Only the awaited segment moves a job on**, and what else arrives leaves it alone. Whatever was
done to a session since it was new: a buffer changes anything, in the session or outside, exactly if
it holds the segment that is awaited; below the last id the session itself is then another one, and
it is the one that has moved on by this segment. A text that cannot be read, or says that the job is
queued, or says nothing known, or that a segment is not there that is not in flight, changes
nothing. An announcement that arrives while a request is in flight makes the session do nothing, and
the request stays as it is. -/
theorem untouched_unless_awaited {timing : Timing} {history : List (Deed σ)} {told : Effects σ}
    (hrun : run { timing } history = (s, told)) :
    (∀ buffer, (¬ s.Untouched (s.onBinary buffer) ↔ ∃ segment, s.Awaits buffer segment) ∧
      (s.flow.next.toNat < maxWord → ((s.onBinary buffer).1 ≠ { s with pending := false } ↔
        ∃ segment, s.Awaits buffer segment)) ∧
      ∀ segment, s.Awaits buffer segment → s.Advanced segment (s.onBinary buffer)) ∧
    (∀ text, s.Ignores (.text text) → s.Untouched (s.onText text)) ∧
    ∀ text available, ServerMessage.parse text = .ok (.newFrames available) →
      s.flow.waiting = true →
        (s.onText text).2.commands = [] ∧ (s.onText text).2.notices = [] ∧
        (s.onText text).1.flow.waiting = true ∧ (s.onText text).1.flow.next = s.flow.next ∧
        (s.onText text).1.armed = s.armed := by
  have coherent : s.Coherent := by
    simpa [hrun] using (Coherent.of_fresh (σ := σ) timing false false false).run history
  refine ⟨fun buffer => ⟨⟨fun h => ?_, ?_⟩, fun hlt => ⟨fun h => ?_, ?_⟩, fun _ h => h.advanced⟩,
    fun _ h => h.untouched, fun text available hp hw => ?_⟩
  · by_contra hnone
    exact h (untouched_onBinary (not_exists.mp hnone))
  · rintro ⟨segment, awaits⟩ untouched
    obtain ⟨more, hcommands, -⟩ := awaits.advanced.look
    simp [untouched.commands_eq] at hcommands
  · by_contra hnone
    exact h (untouched_onBinary (not_exists.mp hnone)).session_eq
  · rintro ⟨segment, awaits⟩ hsame
    have hnext := awaits.advanced.next_eq hlt
    rw [hsame] at hnext
    exact absurd hnext (Nat.ne_of_lt (Nat.lt_succ_self _))
  · exact (turn_onText s text).of_announced_waiting (coherent.noted (.text text)) hp hw

/-- A job that waits for its first segment. The first segment is appended and the sink is told; the
second one comes too early, and neither it nor a text that cannot be read changes anything; and
another announcement makes the session do nothing. -/
theorem untouched_unless_awaited_of_first :
    ∃ (history : List (Deed Unit)) (s : Session Unit) (told : Effects Unit)
      (first second : Bytes) (bad more : String),
      run {} history = (s, told) ∧ Segment.decode second = .ok ⟨2, [7], [[.origin]]⟩ ∧
      ServerMessage.parse bad = .error (.badSegmentId bad) ∧
      ServerMessage.parse more = .ok (.newFrames ⟨3, 3⟩) ∧
      (s.onBinary first).1.trajectory.frames = [[.origin]] ∧
      (s.onBinary first).2.notices = [⟨(), .segment 1 [7] [[.origin]]⟩] ∧
      (s.onBinary first).1.flow.next.toNat = 2 ∧
      s.Untouched (s.onBinary second) ∧ s.Untouched (s.onText bad) ∧
      (s.onText more).2.commands = [] := by
  obtain ⟨first, hfirst⟩ : ∃ buffer, Segment.decode buffer = .ok ⟨1, [7], [[.origin]]⟩ :=
    ⟨Segment.encode 1 [7] [[.origin]], rfl⟩
  obtain ⟨second, hsecond⟩ : ∃ buffer, Segment.decode buffer = .ok ⟨2, [7], [[.origin]]⟩ :=
    ⟨Segment.encode 2 [7] [[.origin]], rfl⟩
  obtain ⟨text, hp⟩ : ∃ text, ServerMessage.parse text = .ok (.newFrames ⟨2, 3⟩) :=
    ⟨"new_frames\x7b\"l\":2,\"f\":3\x7d", by cbv⟩
  obtain ⟨more, hmore⟩ : ∃ text, ServerMessage.parse text = .ok (.newFrames ⟨3, 3⟩) :=
    ⟨"new_frames\x7b\"l\":3,\"f\":3\x7d", by cbv⟩
  obtain ⟨bad, hbad⟩ : ∃ text, ServerMessage.parse text = .error (.badSegmentId text) :=
    ⟨"no_seg-1", rfl⟩
  let history : List (Deed Unit) := [.event .connected, .submit ⟨[⟨"ETH", 1⟩], []⟩, .register (),
    .event (.text text)]
  obtain ⟨s, told, hrun, hrunning, hflow, htrajectory⟩ : ∃ s told, run {} history = (s, told) ∧
      s.running = true ∧ s.flow = { next := 1, latest := 2, total := 3, waiting := true } ∧
      s.trajectory = { sinks := [()] } := by
    refine ⟨(run {} history).1, (run {} history).2, rfl, ?_⟩
    simp only [history, run_cons, Session.perform, Session.handle, onText, hp]
    exact ⟨rfl, rfl, rfl⟩
  obtain ⟨hbuffers, htexts, hannounced⟩ := untouched_unless_awaited hrun
  have advanced := (hbuffers first).2.2 ⟨1, [7], [[.origin]]⟩
    ⟨hrunning, by rw [hflow], hfirst, by rw [hflow], .inl (by rw [htrajectory])⟩
  have hearly (segment : Segment) : ¬ s.Awaits second segment := fun awaits => by
    have hid := awaits.id_eq
    obtain rfl := Except.ok.inj (hsecond.symm.trans awaits.decode_eq)
    rw [hflow] at hid
    exact absurd hid (by decide)
  have hnext := advanced.next_eq (by rw [hflow]; decide)
  have hframes := advanced.frames_eq
  have hnotices := advanced.notices_eq
  rw [hflow] at hnext
  rw [htrajectory] at hframes hnotices
  refine ⟨history, s, told, first, second, bad, more, hrun, hsecond, hbad, hmore, hframes, hnotices,
    hnext, ?_, htexts bad (.malformed hbad), (hannounced more _ hmore (by rw [hflow])).1⟩
  by_contra hchanged
  obtain ⟨segment, awaits⟩ := (hbuffers second).1.mp hchanged
  exact hearly segment awaits

end Session

end Deposition
