import Deposition.Proofs.Session.Announcements
import Deposition.Proofs.Session.Rest
import Mathlib.Data.Prod.Lex

/-!
# The progress that is shown

Whoever waits for a job looks at its status: in the queue, step so many of so many, segment so many
still to be fetched, and in the end complete, failed or gone. Each of these names a point that the
job has reached (`Deposition.JobStatus.reached?`), and the points are ordered: first by the stage,
and within a stage by the number that is shown. A status without a connection, or with a request
unanswered, hides the job and names no point.

In a job whose announcements agree on the number of segments the point never moves back
(`Deposition.Session.progress_never_decreases`). The status is put together from fields that two
different things move – the announcements move what is known of the simulation, the segments that
arrive move the download – and they can only be compared because of what keeps them together:

* what was announced last gives the number of segments, so from the first announcement on the number
  is known, and an announcement that comes late does not move the latest segment back
  (`Deposition.Flow.Advances`);
* once the last segment has been announced, a job that runs has something left to fetch, so that the
  number shown is one of its segments. This is `Deposition.Session.Coherent.complete_le`, and it
  needs that the last segment of a job was announced as such (`Deposition.Flow.Within`).

A job that is over stays at its last point, and shows the same status whenever it shows one.
-/

namespace Deposition

/-- The point that a job has reached by its status, if the status shows one: the stage, and how far
the job is in it. -/
def JobStatus.reached? : JobStatus → Option (ℕ ×ₗ ℕ)
  | .disconnected | .submitting => none
  | .queued => some (toLex (0, 0))
  | .running step _ => some (toLex (1, step.toNat))
  | .downloading next _ => some (toLex (2, next.toNat))
  | .failed | .complete | .idle => some (toLex (3, 0))

/-- A status that shows the end of a job. -/
def JobStatus.IsEnd (status : JobStatus) : Prop := status.reached? = some (toLex (3, 0))

namespace Flow

variable {N : UInt32} {f g h : Flow} {a : Availability}

/-- **A download has moved on**, in a job of so many segments. -/
structure Advances (N : UInt32) (f g : Flow) : Prop where
  /-- The number of segments is the one that was known, or the right one. -/
  total_eq : g.total = f.total ∨ g.total = N
  /-- What was announced stays announced. -/
  latest_le : f.latest.toNat ≤ g.latest.toNat
  /-- What has arrived stays. -/
  next_le : f.next.toNat ≤ g.next.toNat

theorem Advances.refl (N : UInt32) (f : Flow) : Advances N f f :=
  ⟨.inl rfl, Nat.le_refl _, Nat.le_refl _⟩

theorem Advances.trans (hfg : Advances N f g) (hgh : Advances N g h) : Advances N f h := by
  refine ⟨?_, hfg.latest_le.trans hgh.latest_le, hfg.next_le.trans hgh.next_le⟩
  rcases hgh.total_eq with heq | heq
  · rw [heq]
    exact hfg.total_eq
  · exact .inr heq

/-- Whether a segment is in flight is no matter of how far the download is. -/
theorem advances_waiting (N : UInt32) (f : Flow) (waiting : Bool) :
    Advances N f { f with waiting } :=
  ⟨.inl rfl, Nat.le_refl _, Nat.le_refl _⟩

theorem advances_announce (f : Flow) (ha : a.Within N) : Advances N f (f.announce a) := by
  refine ⟨.inr ha.total_eq, ?_, Nat.le_refl _⟩
  rw [toNat_latest_announce]
  exact Nat.le_max_left _ _

theorem advances_received (N : UInt32) (f : Flow) : Advances N f f.received := by
  refine ⟨.inl rfl, Nat.le_refl _, ?_⟩
  have hlt := f.next.toNat_lt
  rw [toNat_next_received, maxWord]
  omega

end Flow

namespace Session

variable {σ : Type} {s s' t : Session σ} {e : Event} {commands : List Command}
  {notices : List (Notice σ)} {deed : Deed σ} {job : List (Deed σ)} {N : UInt32}

/-! ### How far the download is -/

theorem Look.advances (look : s.Look s' commands) (N : UInt32) : s.flow.Advances N s'.flow := by
  cases look with
  | caughtUp | finished | requested => exact Flow.advances_waiting N _ _
  | inFlight => exact .refl N _

/-- **No turn moves a download back.** -/
theorem Turn.advances (turn : s.Turn e s' commands notices)
    (he : ∀ text a, e = .text text → Announces text a → a.Within N) :
    s.flow.Advances N s'.flow := by
  cases turn with
  | announced _ hp look =>
    exact (Flow.advances_announce s.flow (he _ _ rfl hp)).trans (look.advances N)
  | accepted _ _ _ _ look => exact (Flow.advances_received N s.flow).trans (look.advances N)
  | lookedAgain _ _ look => exact look.advances N
  | notReady => exact Flow.advances_waiting N _ _
  | ignored | cancelled | failed | delayOver | askedAgain => exact .refl N _

/-- **A job of so many segments, as far as a session knows.** -/
structure Reports (N : UInt32) (s : Session σ) : Prop where
  /-- The flags of the session agree. -/
  coherent : s.Coherent
  /-- Nothing is announced beyond the job, and its last segment is noted as such. -/
  within : s.flow.Within N
  /-- The number of segments is not known, or the right one. -/
  total_eq : s.flow.total = 0 ∨ s.flow.total = N

theorem reports_started (s : Session σ) (N : UInt32) : s.started.Reports N :=
  ⟨.of_fresh _ _ _ _, Flow.within_new N, .inl rfl⟩

/-- The point that a job has reached, whether or not the status shows it. -/
def reached (s : Session σ) : ℕ ×ₗ ℕ :=
  if s.running = false then toLex (3, 0)
  else if s.flow.total = 0 then toLex (0, 0)
  else if s.flow.latest < s.flow.total then toLex (1, s.flow.latest.toNat + 1)
  else toLex (2, s.flow.next.toNat)

theorem reached_of_resting (hr : s.running = false) : s.reached = toLex (3, 0) := if_pos hr

/-- The point of a running job whose number of segments is known. -/
theorem reached_of_running (hr : s.running = true) (htotal : s.flow.total = N)
    (hN : 0 < N.toNat) : s.reached =
      if s.flow.latest.toNat < N.toNat then toLex (1, s.flow.latest.toNat + 1)
      else toLex (2, s.flow.next.toNat) := by
  have hne : s.flow.total ≠ 0 := by
    rintro hzero
    rw [← htotal, hzero] at hN
    exact absurd hN (Nat.lt_irrefl 0)
  rw [reached, if_neg (by simp [hr]), if_neg hne, htotal]
  exact if_congr UInt32.lt_iff_toNat_lt rfl rfl

/-- No point lies before the queue. -/
theorem start_le_reached (s : Session σ) : toLex (0, 0) ≤ s.reached := by
  unfold reached
  split_ifs <;> simp [Prod.Lex.toLex_le_toLex]

/-- No point lies beyond the end. -/
theorem reached_le_end (s : Session σ) : s.reached ≤ toLex (3, 0) := by
  unfold reached
  split_ifs <;> simp [Prod.Lex.toLex_le_toLex]

namespace Reports

/-- When the last segment has been announced, there is one to fetch, and it is one of the job. -/
theorem next_le (h : s.Reports N) (hN : 0 < N.toNat) (hr : s.running = true)
    (hlatest : ¬ s.flow.latest.toNat < N.toNat) : s.flow.next.toNat ≤ N.toNat := by
  -- were the job not complete, its last segment would not have been announced
  have hcomplete : s.flow.complete = true := by
    by_contra hopen
    exact hlatest (h.within.latest_lt (by simpa using hopen) hN)
  have hnext := UInt32.le_iff_toNat_le.mp (h.coherent.complete_le hr hcomplete)
  exact hnext.trans h.within.latest_le

/-- **A download that moves on takes the job to a later point**, or leaves it where it is. -/
theorem reached_le (h : s.Reports N) (hN : 0 < N.toNat) (hr : s.running = true)
    (hadvances : s.flow.Advances N s'.flow) : s.reached ≤ s'.reached := by
  by_cases hr' : s'.running = false
  · rw [reached_of_resting hr']
    exact s.reached_le_end
  rcases h.total_eq with htotal | htotal
  · have hstart : s.reached = toLex (0, 0) := by
      rw [reached, if_neg (by simp [hr]), if_pos htotal]
    rw [hstart]
    exact s'.start_le_reached
  · have htotal' : s'.flow.total = N := hadvances.total_eq.elim (·.trans htotal) id
    have hlatest := hadvances.latest_le
    rw [reached_of_running hr htotal hN, reached_of_running (by simpa using hr') htotal' hN]
    by_cases hmore : s'.flow.latest.toNat < N.toNat
    · -- there are steps to come after this one, and so there were before
      rw [if_pos (by omega), if_pos hmore]
      exact Prod.Lex.toLex_le_toLex.mpr (.inr ⟨rfl, by simpa using hlatest⟩)
    · rw [if_neg hmore]
      split
      · exact Prod.Lex.toLex_le_toLex.mpr (.inl (by simp))
      · exact Prod.Lex.toLex_le_toLex.mpr (.inr ⟨rfl, hadvances.next_le⟩)

end Reports

/-! ### What a deed does to it -/

/-- What is done to a session within a job: nothing that starts another one, and no announcement
that does not agree with the job. -/
structure BelongsTo (N : UInt32) (s : Session σ) (deed : Deed σ) : Prop where
  /-- A submission is refused. -/
  refused : ∀ c, deed = .submit c → ∃ rejection, s.submit c = .error rejection
  /-- An announcement gives the number of segments, and announces none beyond it. -/
  announces : ∀ text a, deed = .event (.text text) → Announces text a → a.Within N

/-- **No deed moves a job back**, unless it starts another one. -/
theorem Answer.advances (answer : s.Answer deed s' commands notices) (hdeed : s.BelongsTo N deed) :
    s.flow.Advances N s'.flow ∧ (s'.running = true → s.running = true) := by
  cases answer with
  | notSubmitted | notCancelled | registered | released => exact ⟨.refl N _, id⟩
  | submitted h =>
    obtain ⟨rejection, hrejection⟩ := hdeed.refused _ rfl
    simp [h] at hrejection
  | cancelled hr => exact ⟨.refl N _, fun _ => hr⟩
  | handled e =>
    refine ⟨?_, running_of_handle⟩
    have hadvances := (turn_handle s e).advances (N := N) fun text a he hp =>
      hdeed.announces text a (by rw [he]) hp
    rwa [flow_noted] at hadvances

theorem Reports.perform (h : s.Reports N) (hdeed : s.BelongsTo N deed) :
    (s.perform deed).1.Reports N := by
  have answer := answer_perform s deed
  refine ⟨h.coherent.perform deed, answer.within h.within hdeed.announces, ?_⟩
  rcases (answer.advances hdeed).1.total_eq with htotal | htotal
  · rw [htotal]
    exact h.total_eq
  · exact .inr htotal

/-- **A deed takes a job to a later point**, or leaves it where it is. -/
theorem Reports.reached_le_perform (h : s.Reports N) (hN : 0 < N.toNat)
    (hdeed : s.BelongsTo N deed) : s.reached ≤ (s.perform deed).1.reached := by
  obtain ⟨hadvances, hrunning⟩ := (answer_perform s deed).advances hdeed
  by_cases hr : s.running = true
  · exact h.reached_le hN hr hadvances
  · have hrest : (s.perform deed).1.running = false := by
      by_contra hr'
      exact hr (hrunning (by simpa using hr'))
    rw [reached_of_resting hrest]
    exact s.reached_le_end

/-- **Within a job**, what is known of it stays right, and the point that it has reached does not
move back. -/
theorem Reports.run (h : s.Reports N) (hN : 0 < N.toNat) (hrefused : s.Refuses job)
    (hannounces : ∀ text a, .event (.text text) ∈ job → Announces text a → a.Within N) :
    (s.run job).1.Reports N ∧ s.reached ≤ (s.run job).1.reached := by
  induction job generalizing s with
  | nil => exact ⟨h, le_rfl⟩
  | cons deed job ih =>
    have hdeed : s.BelongsTo N deed := ⟨hrefused.1, fun text a hd =>
      hannounces text a (hd ▸ List.mem_cons_self)⟩
    obtain ⟨hreports, hle⟩ := ih (h.perform hdeed) hrefused.2 fun text a hmem =>
      hannounces text a (List.mem_cons_of_mem _ hmem)
    exact ⟨hreports, (h.reached_le_perform hN hdeed).trans hle⟩

/-! ### What is shown of it -/

/-- A status that hides nothing. -/
theorem status_of_shown (hc : s.connected = true) (hp : s.pending = false) :
    s.status = if s.failed then .failed
      else if s.running then
        if s.flow.total = 0 then .queued
        else if s.flow.latest < s.flow.total then .running (s.flow.latest + 1) s.flow.total
        else .downloading s.flow.next s.flow.total
      else if s.analysisReady then .complete
      else .idle := by
  simp [status, JobStatus.derive, hc, hp]

theorem reached?_of_hidden (h : ¬ (s.connected = true ∧ s.pending = false)) :
    s.status.reached? = none := by
  rw [status, JobStatus.derive]
  cases hc : s.connected with
  | false => rfl
  | true =>
    have hp : s.pending = true := by simpa [hc] using h
    rw [hp]
    rfl

/-- The step that is shown comes after the latest segment. -/
theorem toNat_latest_add_one (h : s.flow.latest < s.flow.total) :
    (s.flow.latest + 1).toNat = s.flow.latest.toNat + 1 := by
  have hlt := UInt32.lt_iff_toNat_lt.mp h
  have htotal := s.flow.total.toNat_lt
  have hone : (1 : UInt32).toNat = 1 := rfl
  rw [UInt32.toNat_add, hone]
  exact Nat.mod_eq_of_lt (by omega)

/-- **A status that hides nothing shows the point that the job has reached.** -/
theorem reached?_of_shown (h : s.Coherent) (hc : s.connected = true) (hp : s.pending = false) :
    s.status.reached? = some s.reached := by
  rw [status_of_shown hc hp, reached]
  cases hr : s.running with
  | false => cases s.failed <;> cases s.analysisReady <;> rfl
  | true =>
    rw [h.failed_eq_false hr]
    by_cases htotal : s.flow.total = 0
    · simp [htotal, JobStatus.reached?]
    · by_cases hlatest : s.flow.latest < s.flow.total
      · simp [htotal, hlatest, JobStatus.reached?, toNat_latest_add_one hlatest]
      · simp [htotal, hlatest, JobStatus.reached?]

theorem shown_of_reached? {p : ℕ ×ₗ ℕ} (h : s.Coherent) (hp : s.status.reached? = some p) :
    s.connected = true ∧ s.pending = false ∧ s.reached = p := by
  by_cases hshown : s.connected = true ∧ s.pending = false
  · rw [reached?_of_shown h hshown.1 hshown.2] at hp
    exact ⟨hshown.1, hshown.2, Option.some.inj hp⟩
  · simp [reached?_of_hidden hshown] at hp

/-- Only a job that is over has reached the end. -/
theorem running_eq_false_of_reached (h : s.reached = toLex (3, 0)) : s.running = false := by
  by_contra hr
  rw [reached, if_neg hr] at h
  split_ifs at h <;> simp at h

/-- What is shown of a job that is over stays the same. -/
theorem Keeps.status_eq (keeps : s.Keeps t) (hr : s.running = false) (hc : s.connected = true)
    (hp : s.pending = false) (hct : t.connected = true) (hpt : t.pending = false) :
    t.status = s.status := by
  obtain ⟨_, _, _, rfl⟩ := keeps
  rw [status_of_shown hc hp, status_of_shown hct hpt, hr]

/-- A step is shown of a running job whose last segment has not been announced. -/
theorem of_status_running {step total : UInt32} (hs : s.status = .running step total) :
    s.running = true ∧ s.flow.total = total ∧ total ≠ 0 ∧ s.flow.latest < s.flow.total ∧
      step = s.flow.latest + 1 := by
  unfold status JobStatus.derive at hs
  split_ifs at hs with _ _ _ hr htotal hlatest
  obtain ⟨rfl, rfl⟩ := JobStatus.running.inj hs
  exact ⟨hr, rfl, htotal, hlatest, rfl⟩

/-- A segment is shown of a running job whose last segment has been announced. -/
theorem of_status_downloading {next total : UInt32} (hs : s.status = .downloading next total) :
    s.running = true ∧ s.flow.total = total ∧ total ≠ 0 ∧ ¬ s.flow.latest < s.flow.total ∧
      next = s.flow.next := by
  unfold status JobStatus.derive at hs
  split_ifs at hs with _ _ _ hr htotal hlatest
  obtain ⟨rfl, rfl⟩ := JobStatus.downloading.inj hs
  exact ⟨hr, rfl, htotal, hlatest, rfl⟩

/-- **The numbers that are shown** are numbers of the job. -/
theorem Reports.inRange (h : s.Reports N) (hN : 0 < N.toNat) :
    (∀ step total, s.status = .running step total → total = N ∧ 1 ≤ step.toNat ∧
      step.toNat ≤ N.toNat ∧ step.toNat = s.flow.latest.toNat + 1) ∧
    ∀ next total, s.status = .downloading next total → total = N ∧ 1 ≤ next.toNat ∧
      next.toNat ≤ N.toNat ∧ next = s.flow.next := by
  refine ⟨fun step total hs => ?_, fun next total hs => ?_⟩
  · obtain ⟨-, rfl, hne, hlatest, rfl⟩ := of_status_running hs
    have htotal := h.total_eq.resolve_left hne
    have hlt := UInt32.lt_iff_toNat_lt.mp hlatest
    rw [htotal] at hlt
    rw [toNat_latest_add_one hlatest]
    exact ⟨htotal, by omega, hlt, rfl⟩
  · obtain ⟨hr, rfl, hne, hlatest, rfl⟩ := of_status_downloading hs
    have htotal := h.total_eq.resolve_left hne
    rw [htotal, UInt32.lt_iff_toNat_lt] at hlatest
    exact ⟨htotal, h.coherent.next_pos, h.next_le hN hr hlatest, rfl⟩

/-- **The progress that is shown never decreases.** Take a job whose announcements all give the same
number of segments, at least one, and announce none beyond it; and anything that is done to the
session until the next submission that is accepted. Whenever a step is shown, it is one of so many,
and it is the one after the latest segment that was announced; whenever a segment is shown, it is
one of so many, and it is the next one. Of two moments, the later one shows the same point of the
job or a later one, if both show any: the queue, then the steps, then the segments, then the end.
And a status that shows the end is shown from then on. -/
theorem progress_never_decreases {s₀ s₁ : Session σ} {c : Configuration} {effects : Effects σ}
    (hsubmit : s₀.submit c = .ok (s₁, effects)) (hN : 1 ≤ N.toNat) (hrefused : s₁.Refuses job)
    (hannounces : ∀ text a, .event (.text text) ∈ job → Announces text a → a.Within N) :
    (∀ part, part <+: job →
      (∀ step total, (s₁.run part).1.status = .running step total → total = N ∧
        1 ≤ step.toNat ∧ step.toNat ≤ N.toNat ∧
        step.toNat = (s₁.run part).1.flow.latest.toNat + 1) ∧
      ∀ next total, (s₁.run part).1.status = .downloading next total → total = N ∧
        1 ≤ next.toNat ∧ next.toNat ≤ N.toNat ∧ next = (s₁.run part).1.flow.next) ∧
    ∀ earlier later, earlier <+: later → later <+: job → ∀ p q,
      (s₁.run earlier).1.status.reached? = some p →
      (s₁.run later).1.status.reached? = some q →
        p ≤ q ∧ ((s₁.run earlier).1.status.IsEnd →
          (s₁.run later).1.status = (s₁.run earlier).1.status) := by
  have hstart : s₁.Reports N := by
    rw [(submit_eq_ok hsubmit).1]
    exact reports_started s₀ N
  -- what is asked of the whole job is met by every part of it
  have hpart (part : List (Deed σ)) (h : part <+: job) : (s₁.run part).1.Reports N := by
    obtain ⟨rest, rfl⟩ := h
    exact (hstart.run hN ((refuses_append _ _ _).mp hrefused).1 fun text a hmem =>
      hannounces text a (List.mem_append_left _ hmem)).1
  refine ⟨fun part h => (hpart part h).inRange hN, ?_⟩
  rintro earlier - ⟨between, rfl⟩ hlater p q hp hq
  have hearlier : earlier <+: job := (List.prefix_append _ _).trans hlater
  have hreports := hpart earlier hearlier
  have hreports' := hpart _ hlater
  obtain ⟨rest, rfl⟩ := hlater
  have hbetween := ((refuses_append _ _ _).mp ((refuses_append _ _ _).mp hrefused).1).2
  rw [run_append] at hq hreports' ⊢
  obtain ⟨hc, hpending, rfl⟩ := shown_of_reached? hreports.coherent hp
  obtain ⟨hc', hpending', rfl⟩ := shown_of_reached? hreports'.coherent hq
  refine ⟨(hreports.run hN hbetween fun text a hmem => hannounces text a ?_).2, fun hend => ?_⟩
  · exact List.mem_append_left _ (List.mem_append_right _ hmem)
  · rw [JobStatus.IsEnd, hp, Option.some.injEq] at hend
    have hr := running_eq_false_of_reached hend
    exact (keeps_run hr hbetween).status_eq hr hc hpending hc' hpending'

/-- A job of two segments, whose connection is lost for a while. The second step is shown, then
nothing, then the second segment, and in the end that the job is complete; an announcement that
comes after it is late. -/
theorem progress_never_decreases_of_two :
    ∃ (s : Session Unit) (effects : Effects Unit) (first both : String) (one two : Bytes)
      (job : List (Deed Unit)),
      submit ({ connected := true } : Session Unit) ⟨[⟨"ETH", 1⟩], []⟩ = .ok (s, effects) ∧
      Announces first ⟨1, 2⟩ ∧ Announces both ⟨2, 2⟩ ∧
      job = [.event (.text first), .event .disconnected, .event (.text both), .event .connected,
        .event (.binary one), .event (.text first), .event (.binary two), .event (.text both)] ∧
      (s.run (job.take 1)).1.status = .running 2 2 ∧
      (s.run (job.take 3)).1.status = .disconnected ∧
      (s.run (job.take 5)).1.status = .downloading 2 2 ∧
      (s.run (job.take 7)).1.status = .complete ∧
      (∀ p q, (s.run (job.take 1)).1.status.reached? = some p →
        (s.run (job.take 5)).1.status.reached? = some q → p ≤ q) ∧
      (s.run job).1.status = .complete := by
  obtain ⟨first, hfirst⟩ : ∃ text, Announces text ⟨1, 2⟩ :=
    ⟨"new_frames\x7b\"l\":1,\"f\":2\x7d", by rw [Announces]; cbv⟩
  obtain ⟨both, hboth⟩ : ∃ text, Announces text ⟨2, 2⟩ :=
    ⟨"new_frames\x7b\"l\":2,\"f\":2\x7d", by rw [Announces]; cbv⟩
  obtain ⟨one, hone⟩ : ∃ buffer, Segment.decode buffer = .ok ⟨1, [7], [[.origin]]⟩ :=
    ⟨Segment.encode 1 [7] [[.origin]], rfl⟩
  obtain ⟨two, htwo⟩ : ∃ buffer, Segment.decode buffer = .ok ⟨2, [7], [[.origin]]⟩ :=
    ⟨Segment.encode 2 [7] [[.origin]], rfl⟩
  obtain ⟨s, effects, hsubmit⟩ : ∃ s effects,
      submit ({ connected := true } : Session Unit) ⟨[⟨"ETH", 1⟩], []⟩ = .ok (s, effects) :=
    ⟨_, _, rfl⟩
  let job : List (Deed Unit) := [.event (.text first), .event .disconnected, .event (.text both),
    .event .connected, .event (.binary one), .event (.text first), .event (.binary two),
    .event (.text both)]
  have hshown : (s.run (job.take 1)).1.status = .running 2 2 ∧
      (s.run (job.take 3)).1.status = .disconnected ∧
      (s.run (job.take 5)).1.status = .downloading 2 2 ∧
      (s.run (job.take 7)).1.status = .complete ∧ (s.run job).1.connected = true ∧
      (s.run job).1.pending = false := by
    obtain ⟨rfl, -⟩ := submit_eq_ok hsubmit
    rw [Announces] at hfirst hboth
    simp only [job, List.take, run_cons, Session.perform, Session.handle, onText, onBinary, hfirst,
      hboth, hone, htwo]
    exact ⟨rfl, rfl, rfl, rfl, rfl, rfl⟩
  obtain ⟨hrunning, hhidden, hdownloading, hcomplete, hconnected, hpending⟩ := hshown
  have hrefused : s.Refuses job := by simp [job, Refuses]
  have hannounces (text : String) (a : Availability) (hmem : .event (.text text) ∈ job)
      (ha : Announces text a) : a.Within 2 := by
    have hcases : text = first ∨ text = both := by
      have htexts : text = first ∨ text = both ∨ text = first ∨ text = both := by
        simpa [job] using hmem
      tauto
    rw [Announces] at ha hfirst hboth
    obtain rfl | rfl := hcases
    · obtain rfl : a = ⟨1, 2⟩ := by simpa [hfirst] using ha.symm
      exact ⟨rfl, by decide⟩
    · obtain rfl : a = ⟨2, 2⟩ := by simpa [hboth] using ha.symm
      exact ⟨rfl, by decide⟩
  obtain ⟨-, hmonotone⟩ :=
    progress_never_decreases hsubmit (N := 2) (by decide) hrefused hannounces
  have hlast : (s.run job).1.status.reached? = some (s.run job).1.reached :=
    reached?_of_shown ((Coherent.of_submit hsubmit).run job) hconnected hpending
  have hend := (hmonotone (job.take 7) job (List.take_prefix _ _) List.prefix_rfl _ _
    (by rw [hcomplete]; rfl) hlast).2 (by rw [hcomplete]; rfl)
  refine ⟨s, effects, first, both, one, two, job, hsubmit, hfirst, hboth, rfl, hrunning, hhidden,
    hdownloading, hcomplete, fun p q hp hq => ?_, hend.trans hcomplete⟩
  have hprefix : job.take 1 <+: job.take 5 := List.take_prefix_take_left (by decide)
  exact (hmonotone _ _ hprefix (List.take_prefix _ _) p q hp hq).1

end Session

end Deposition
