import Deposition.Proofs.Session.Coherence
import Mathlib.Data.List.Forall2

/-!
# The download agrees with the job

A server that serves one job, and says nothing untrue about it, may still answer late, twice, in
any order, or with "not yet"; timers run out and connections come and go in between. None of that
is seen in the trajectory. `Deposition.ServedJob` is what such a server serves,
`Deposition.ServedJob.Admits` the events that it can cause, and
`Deposition.Session.download_agreement` says that after every run of such events the trajectory is
a first part of the job and nothing else, and that the session is done at most once, with all of
it.

Two invariants carry this.

* **What has been downloaded** (`Deposition.Session.Holds`): the number of the next segment is one
  more than the number of segments in the trajectory. It moves in one turn only, when the segment in
  flight arrives; that the segment in flight is the next one is
  `Deposition.Session.Coherent.waiting_le`.
* **What has been said about the end** (`Deposition.Session.Closed`): as many times as the session
  has said that it is done, so many times – none or once – it *is* done, and then everything
  announced has been fetched and the last segment of the job has been announced.
-/

namespace Deposition

/-! ### What is served -/

/-- **A job as a server serves it**: buffers that can be read, numbered from 1, of one species
list. -/
structure ServedJob where
  /-- The species of each particle. -/
  species : Bytes
  /-- The buffers, in the order of their ids. -/
  buffers : List Bytes
  /-- What is in the buffers. -/
  segments : List Segment
  /-- Each buffer can be read. -/
  decodes : List.Forall₂ (fun buffer segment => Segment.decode buffer = .ok segment)
    buffers segments
  /-- The ids count from 1. -/
  id_eq : ∀ k (h : k < segments.length), segments[k].id.toNat = k + 1
  /-- All segments carry the same species. -/
  species_eq : ∀ segment ∈ segments, segment.species = species
  /-- The greatest word is no segment's id, so that ids can go one beyond the job. -/
  length_lt : segments.length < maxWord

namespace ServedJob

variable (job : ServedJob)

/-- The number of segments. -/
def count : Nat := job.segments.length

/-- The frames of the first segments. -/
def framesOf (m : Nat) : List Frame := (job.segments.take m).flatMap Segment.frames

/-- The species, which the first segment tells. -/
def speciesOf (m : Nat) : Option Bytes := if m = 0 then none else some job.species

/-- The last frame of the whole job, if it has any. -/
def lastFrame? : Option AnalysisFrame :=
  (job.framesOf job.count).getLast?.map fun frame => ⟨job.species, frame⟩

/-- **The events that a server of this job can cause**, and all that are caused by nobody: an
announcement gives the number of segments and none beyond it, and a binary message is a segment of
the job or cannot be read. -/
def Admits : Event → Prop
  | .text text => ∀ available, ServerMessage.parse text = .ok (.newFrames available) →
      available.total.toNat = job.count ∧ available.latest ≤ available.total
  | .binary buffer => buffer ∈ job.buffers ∨ ∃ error, Segment.decode buffer = .error error
  | .connected | .disconnected | .timer _ => True

variable {job}

@[simp] theorem framesOf_zero : job.framesOf 0 = [] := by simp [framesOf]

theorem framesOf_succ {m : Nat} (h : m < job.segments.length) :
    job.framesOf (m + 1) = job.framesOf m ++ job.segments[m].frames := by
  rw [framesOf, ← List.take_append_getElem h, List.flatMap_append, List.flatMap_singleton, framesOf]

/-- What a buffer of the job holds is the segment of the job that has its id. -/
theorem eq_of_admits {buffer : Bytes} {segment : Segment} {m : Nat}
    (ha : job.Admits (.binary buffer)) (hd : Segment.decode buffer = .ok segment)
    (hid : segment.id.toNat = m + 1) :
    ∃ h : m < job.segments.length, segment = job.segments[m] := by
  rcases ha with hmem | ⟨error, herr⟩
  · obtain ⟨k, hk, rfl⟩ := List.getElem_of_mem hmem
    have hlen := job.decodes.length_eq
    have hk' : k < job.segments.length := hlen ▸ hk
    have hdk := job.decodes.get hk hk'
    simp only [List.get_eq_getElem, hd, Except.ok.injEq] at hdk
    have hidk := job.id_eq k hk'
    -- ids are distinct, so the buffer's place in the job is told by the id in it
    obtain rfl : k = m := by rw [← hdk] at hidk; omega
    exact ⟨hk', hdk⟩
  · simp [hd] at herr

/-- Ten units away from the origin. -/
def away : Position := ⟨.ten, .zero, .zero⟩

/-- The first segment of a job: an atom of oxygen and one of hydrogen change places. -/
def early : Segment := ⟨1, [7, 0], [[.origin, away], [away, .origin]]⟩

/-- The second segment: both are in one place. -/
def late : Segment := ⟨2, [7, 0], [[away, away]]⟩

/-- A job of two segments, of which the first has two frames. -/
def pair : ServedJob where
  species := [7, 0]
  buffers := [early, late].map fun segment =>
    Segment.encode segment.id segment.species segment.frames
  segments := [early, late]
  decodes := .cons rfl (.cons rfl .nil)
  id_eq
    | 0, _ => rfl
    | 1, _ => rfl
  species_eq := by simp [early, late]
  length_lt := by decide

/-- What its server sends: an announcement of the whole job, and the two buffers. -/
theorem exists_sent_of_pair : ∃ (text : String) (first second : Bytes),
    ServerMessage.parse text = .ok (.newFrames ⟨2, 2⟩) ∧ pair.buffers = [first, second] ∧
      Segment.decode first = .ok early ∧ Segment.decode second = .ok late :=
  ⟨"new_frames\x7b\"l\":2,\"f\":2\x7d", _, _, by cbv, rfl, rfl, rfl⟩

end ServedJob

namespace Session

variable {σ : Type} {s s' : Session σ} {e : Event} {commands : List Command}
  {notices : List (Notice σ)}

/-! ### The end of a job -/

/-- **The end is announced when it is reached**: what a session has said about being done, and what
is then true of its download. -/
structure Closed (s : Session σ) (commands : List Command) : Prop where
  /-- It says that it is done once, or not at all. -/
  count_eq : commands.count .finished = s.analysisReady.toNat
  /-- Everything announced has been fetched. -/
  latest_lt : s.analysisReady = true → s.flow.latest < s.flow.next
  /-- The end of the job was announced. -/
  complete_eq : s.analysisReady = true → s.flow.complete = true

namespace Closed

theorem of_look (look : s.Look s' commands) (ha : s.analysisReady = false) :
    s'.Closed commands := by
  cases look with
  | caughtUp h hc => exact ⟨by simp [ha], by simp [ha], by simp [ha]⟩
  | finished h hc => exact ⟨rfl, fun _ => h, fun _ => hc⟩
  | inFlight h hw => exact ⟨by simp [ha], by simp [ha], by simp [ha]⟩
  | requested h hw => exact ⟨by simp [ha], by simp [ha], by simp [ha]⟩

/-- A turn that looks at nothing ends nothing. -/
theorem of_running (hs : s'.analysisReady = false) (hc : commands.count .finished = 0) :
    s'.Closed commands :=
  ⟨by simp [hs, hc], by simp [hs], by simp [hs]⟩

/-- What a session says in one turn, if it was not done before. -/
theorem turn (turn : s.Turn e s' commands notices) (ha : s.analysisReady = false) :
    s'.Closed commands := by
  cases turn with
  | ignored _ => exact of_running ha rfl
  | announced _ _ look => exact of_look look ha
  | notReady _ _ _ => exact of_running ha rfl
  | cancelled _ _ => exact of_running ha (by decide)
  | failed _ _ => exact of_running ha (by decide)
  | accepted _ _ _ _ look =>
    have closed := of_look look ha
    exact ⟨by simpa using closed.count_eq, closed.latest_lt, closed.complete_eq⟩
  | delayOver _ => exact of_running ha (by split <;> simp)
  | askedAgain _ _ => exact of_running ha (by simp)
  | lookedAgain _ _ look => exact of_look look ha

end Closed

/-- A session that has said that it is done is done. -/
theorem Closed.analysisReady_eq (closed : s.Closed commands) (h : .finished ∈ commands) :
    s.analysisReady = true := by
  by_contra hready
  refine List.count_eq_zero.mp ?_ h
  rw [closed.count_eq, Bool.eq_false_iff.mpr hready]
  rfl

/-- **One event more**: a session that is done stays so and says no more about it, and one that is
not done has said nothing. -/
theorem Closed.handle {said : List Command} (closed : s.Closed said) (h : s.Coherent) (e : Event) :
    (s.handle e).1.Closed (said ++ (s.handle e).2.commands) := by
  have turn := turn_handle s e
  cases ha : s.analysisReady with
  | false =>
    have now := Closed.turn turn (by simpa using ha)
    have before : said.count .finished = 0 := by simp [closed.count_eq, ha]
    exact ⟨by simp [before, now.count_eq], now.latest_lt, now.complete_eq⟩
  | true =>
    -- a session that is done runs no job, and so takes no turn
    obtain ⟨hs, hc, -⟩ := turn.of_resting (by simpa using (h.of_analysisReady ha).1)
    rw [hs, hc]
    exact ⟨by simpa using closed.count_eq, by simpa using closed.latest_lt,
      by simpa using closed.complete_eq⟩

/-- The end is not touched by any other deed, unless a submission starts over. -/
theorem Closed.answer {said : List Command} (closed : s.Closed said) (h : s.Coherent)
    {deed : Deed σ} (hsubmit : ∀ c step, deed = .submit c → s.submit c ≠ .ok step)
    (answer : s.Answer deed s' commands notices) : s'.Closed (said ++ commands) := by
  cases answer with
  | notSubmitted _ => simpa using closed
  | submitted hs => exact absurd hs (hsubmit _ _ rfl)
  | notCancelled _ => simpa using closed
  | cancelled _ =>
    refine ⟨?_, closed.latest_lt, closed.complete_eq⟩
    rw [List.count_append, closed.count_eq]
    rfl
  | handled e => exact closed.handle h e
  | registered _ =>
    refine ⟨?_, closed.latest_lt, closed.complete_eq⟩
    rw [List.append_nil, closed.count_eq]
    rfl
  | released => exact ⟨by simpa using closed.count_eq, closed.latest_lt, closed.complete_eq⟩

/-- A submission has said nothing of the end. -/
theorem Closed.of_submit {s₀ : Session σ} {c : Configuration} {effects : Effects σ}
    (h : s₀.submit c = .ok (s, effects)) : s.Closed [] := by
  obtain ⟨rfl, -⟩ := submit_eq_ok h
  exact ⟨rfl, by simp [started], by simp [started]⟩

/-! ### What has been downloaded -/

/-- **The session has the first segments of a job** and believes nothing untrue about the rest. -/
structure Holds (job : ServedJob) (m : Nat) (s : Session σ) : Prop where
  /-- The segment after them is next. -/
  next_eq : s.flow.next.toNat = m + 1
  /-- Nothing beyond the job was announced. -/
  latest_le : s.flow.latest.toNat ≤ job.count
  /-- The job is complete when its last segment was announced. -/
  latest_eq : s.flow.complete = true → s.flow.latest.toNat = job.count
  /-- Their frames are the trajectory. -/
  frames_eq : s.trajectory.frames = job.framesOf m
  /-- The first of them has told the species. -/
  species_eq : s.trajectory.species = job.speciesOf m

namespace Holds

variable {job : ServedJob} {m : Nat}

/-- A look at the download leaves everything downloaded as it is. -/
theorem of_look (look : s.Look s' commands) (h : s.Holds job m) : s'.Holds job m := by
  cases look <;> exact ⟨h.next_eq, h.latest_le, h.latest_eq, h.frames_eq, h.species_eq⟩

/-- An announcement that the job bears out. -/
theorem announce (h : s.Holds job m) {available : Availability}
    (htotal : available.total.toNat = job.count) (hle : available.latest ≤ available.total) :
    Holds job m { s with flow := s.flow.announce available } := by
  have hlatest := h.latest_le
  rw [UInt32.le_iff_toNat_le] at hle
  refine ⟨h.next_eq, ?_, fun hc => ?_, h.frames_eq, h.species_eq⟩
  · rw [Flow.toNat_latest_announce]
    omega
  · rw [Flow.toNat_latest_announce]
    rcases Flow.complete_announce s.flow available |>.mp hc with hc | hc
    · have := h.latest_eq hc
      omega
    · rw [hc]
      omega

/-- The segment in flight is the next one of the job. -/
theorem append (h : s.Holds job m) {segment : Segment} (hm : m < job.segments.length)
    (hsegment : segment = job.segments[m]) : (s.appending segment).Holds job (m + 1) := by
  have hspecies := job.species_eq segment (hsegment ▸ List.getElem_mem hm)
  refine ⟨?_, h.latest_le, h.latest_eq, ?_, ?_⟩
  · -- the job is shorter than the greatest word, where counting would stop
    have := job.length_lt
    simp only [appending, Flow.toNat_next_received, h.next_eq]
    omega
  · simp only [appending, Trajectory.extend, h.frames_eq, ServedJob.framesOf_succ hm, hsegment]
  · simp [appending, Trajectory.extend, ServedJob.speciesOf, hspecies]

/-- **Every turn that the server can cause** leaves the trajectory a first part of the job. -/
theorem turn (h : s.Holds job m) (ha : job.Admits e) (turn : s.Turn e s' commands notices) :
    ∃ m', s'.Holds job m' := by
  cases turn with
  | ignored _ => exact ⟨m, h⟩
  | announced _ hp look =>
    obtain ⟨htotal, hle⟩ := ha _ hp
    exact ⟨m, of_look look (h.announce htotal hle)⟩
  | notReady _ _ _ => exact ⟨m, h.next_eq, h.latest_le, h.latest_eq, h.frames_eq, h.species_eq⟩
  | cancelled _ _ => exact ⟨m, h.next_eq, h.latest_le, h.latest_eq, h.frames_eq, h.species_eq⟩
  | failed _ _ => exact ⟨m, h.next_eq, h.latest_le, h.latest_eq, h.frames_eq, h.species_eq⟩
  | accepted _ hd he _ look =>
    have hid := (Flow.expects_iff.mp he).2
    obtain ⟨hm, hsegment⟩ := ServedJob.eq_of_admits ha hd (by rw [hid, h.next_eq])
    exact ⟨m + 1, of_look look (h.append hm hsegment)⟩
  | delayOver _ => exact ⟨m, h.next_eq, h.latest_le, h.latest_eq, h.frames_eq, h.species_eq⟩
  | askedAgain _ _ => exact ⟨m, h⟩
  | lookedAgain _ _ look => exact ⟨m, of_look look h⟩

theorem noted (h : s.Holds job m) (e : Event) : (s.noted e).Holds job m := by
  cases e <;> exact ⟨h.next_eq, h.latest_le, h.latest_eq, h.frames_eq, h.species_eq⟩

theorem handle (h : s.Holds job m) (ha : job.Admits e) : ∃ m', (s.handle e).1.Holds job m' :=
  (h.noted e).turn ha (turn_handle s e)

/-- The last frame of the trajectory of a whole job is the job's last frame. -/
theorem lastFrame?_eq (h : s.Holds job job.count) : s.trajectory.lastFrame? = job.lastFrame? := by
  rw [Trajectory.lastFrame?, h.frames_eq, h.species_eq, ServedJob.speciesOf, ServedJob.lastFrame?]
  split
  · next hzero => simp [hzero]
  · cases (job.framesOf job.count).getLast? <;> rfl

end Holds

/-! ### The agreement -/

/-- **The download agrees with the job.** After any run of events that a server of this job can
cause, from a submission that was accepted, the trajectory is the frames of the first segments in
order; and if the session has said that it is done, it has said so once, it has every segment, and
the frame to be analysed is the last one of the job. -/
theorem download_agreement {job : ServedJob} {s₀ s t : Session σ} {c : Configuration}
    {effects brought : Effects σ} (hs : s₀.submit c = .ok (s, effects)) {events : List Event}
    (ha : ∀ e ∈ events, job.Admits e) (hrun : s.run (events.map .event) = (t, brought)) :
    ∃ m, t.flow.next.toNat = m + 1 ∧ m ≤ t.flow.latest.toNat ∧ t.flow.latest.toNat ≤ job.count ∧
      t.trajectory.frames = job.framesOf m ∧ t.trajectory.species = job.speciesOf m ∧
      brought.commands.count .finished ≤ 1 ∧
      (.finished ∈ brought.commands → m = job.count ∧ t.analysis = job.lastFrame?) := by
  have start : s.Coherent ∧ s.Closed [] ∧ s.Holds job 0 := by
    refine ⟨.of_submit hs, .of_submit hs, ?_⟩
    obtain ⟨rfl, -⟩ := submit_eq_ok hs
    exact ⟨rfl, Nat.zero_le _, by simp [started], by simp [started], rfl⟩
  obtain ⟨coherent, closed, m, holds⟩ :
      t.Coherent ∧ t.Closed brought.commands ∧ ∃ m, t.Holds job m := by
    refine run_induction (P := fun u so => u.Coherent ∧ u.Closed so.commands ∧ ∃ m, u.Holds job m)
      hrun ⟨start.1, start.2.1, 0, start.2.2⟩ ?_
    -- the three invariants are kept together: the second needs the first
    rintro deed hdeed u so ⟨coherent, closed, m, holds⟩
    obtain ⟨e, he, rfl⟩ := List.mem_map.mp hdeed
    exact ⟨coherent.handle e, closed.handle coherent e, holds.handle (ha e he)⟩
  have hnext := holds.next_eq
  have hlatest := holds.latest_le
  have hle := coherent.next_le
  refine ⟨m, hnext, by omega, hlatest, holds.frames_eq, holds.species_eq, ?_, fun hf => ?_⟩
  · rw [closed.count_eq]
    exact Bool.toNat_le _
  · -- the end was announced, which fixes `latest`, and everything up to `latest` was fetched
    have hready := closed.analysisReady_eq hf
    have hcomplete := holds.latest_eq (closed.complete_eq hready)
    have hlt := UInt32.lt_iff_toNat_lt.mp (closed.latest_lt hready)
    obtain rfl : m = job.count := by omega
    exact ⟨rfl, (coherent.of_analysisReady hready).2.trans holds.lastFrame?_eq⟩

/-- The agreement at the end of a job of two segments: they are announced, asked for after their
delay, and the first one is sent again before and after the second. -/
theorem download_agreement_of_pair :
    ∃ (s t : Session Unit) (effects brought : Effects Unit) (events : List Event),
      submit { connected := true } ⟨[⟨"ETH", 1⟩], []⟩ = .ok (s, effects) ∧
      (∀ e ∈ events, ServedJob.pair.Admits e) ∧
      s.run (events.map .event) = (t, brought) ∧ .finished ∈ brought.commands ∧
      t.trajectory.frames = ServedJob.early.frames ++ ServedJob.late.frames ∧
      t.analysis = some ⟨[7, 0], [ServedJob.away, ServedJob.away]⟩ := by
  obtain ⟨text, first, second, htext, hbuffers, hfirst, hsecond⟩ := ServedJob.exists_sent_of_pair
  obtain ⟨s, effects, hs⟩ : ∃ s effects,
      submit ({ connected := true } : Session Unit) ⟨[⟨"ETH", 1⟩], []⟩ = .ok (s, effects) :=
    ⟨_, _, rfl⟩
  let events : List Event :=
    [.text text, .timer .debounce, .binary first, .binary first, .binary second, .binary first]
  have ha : ∀ e ∈ events, ServedJob.pair.Admits e := by
    have hcount : ServedJob.pair.count = 2 := rfl
    simp [events, ServedJob.Admits, htext, hbuffers, hcount]
  have hf : .finished ∈ (s.run (events.map .event)).2.commands := by
    obtain ⟨rfl, -⟩ := submit_eq_ok hs
    simp only [events, List.map, run_cons, perform, handle, onText, onBinary, htext, hfirst,
      hsecond]
    apply List.mem_of_elem_eq_true
    rfl
  obtain ⟨m, -, -, -, hframes, -, -, hdone⟩ := download_agreement hs ha rfl
  obtain ⟨rfl, hanalysis⟩ := hdone hf
  exact ⟨s, _, effects, _, events, hs, ha, rfl, hf, hframes, hanalysis⟩

end Session

end Deposition
