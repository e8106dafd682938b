import Deposition.Proofs.Archive.Mirror
import Deposition.Proofs.Job.Script

/-!
# Jobs that are under way

A job is *under way* (`Deposition.Job.Streaming`) from the submission of its configuration until it
ends. While it is, nothing decides about it but its session. The status by which the job is judged
hides more than it shows, but a job that is under way never meets what it hides: the session fails
or stops only at a message, and at a message there is a connection and no unanswered request
(`Deposition.Session.fate_handle`). So the verdict on the job after an occurrence is that it has
ended exactly if the occurrence ends it (`Deposition.Job.Streaming.verdict_absorb`).

What a step or a whole run does is put together in `Deposition.Job.Brings`: how it ends, which
segments have gone to the trajectory, and what the sinks were told. One step brings about what it
should (`Deposition.Job.Streaming.step`), and so by induction on the script does a run
(`Deposition.Job.Streaming.run`). The sinks are registered all the while and are released by the
last step only, which is why each of them hears of its release once.
-/

namespace Deposition

section Calls

variable {σ : Type} [DecidableEq σ]

/-- What is said when all of these sinks are told several things in order. -/
def tellAll (sinks : List σ) (calls : List SinkCall) : List (Notice σ) :=
  calls.flatMap fun call => sinks.map fun sink => ⟨sink, call⟩

omit [DecidableEq σ] in
theorem tellAll_append (sinks : List σ) (calls more : List SinkCall) :
    tellAll sinks (calls ++ more) = tellAll sinks calls ++ tellAll sinks more :=
  List.flatMap_append

/-- **Each of the sinks is told everything**, and nobody else is told anything. -/
theorem callsTo_tellAll {sinks : List σ} (h : sinks.Nodup) (x : σ) (calls : List SinkCall) :
    callsTo x (tellAll sinks calls) = if x ∈ sinks then calls else [] := by
  induction calls with
  | nil => simp [tellAll, callsTo]
  | cons call calls ih =>
    have hcons : tellAll sinks (call :: calls) = tellAll sinks [call] ++ tellAll sinks calls :=
      tellAll_append sinks [call] calls
    rw [hcons, callsTo_append, ih, tellAll, List.flatMap_singleton, callsTo_map, h.count]
    split <;> rfl

end Calls

namespace Job

variable {j : Job} {now : Nat} {occurrence : Occurrence} {occurrences : List (Nat × Occurrence)}
  {outcome : Except Failure JobOutcome} {up up' : Bool} {e : Event} {sinks : List ExportKind}
  {segments more : List Segment} {ends ends' : Except Failure JobOutcome → Prop}

/-! ### What is brought about -/

/-- What a sink is told of a job: the segments, and in the end that it is released. -/
def calls (segments : List Segment) (ended : Bool) : List SinkCall :=
  segments.map Segment.call ++ if ended then [.released] else []

/-- **What a step or a run brings about**: it ends the job in one of these ways or not at all, and
these segments go to the trajectory and to the sinks, which are released at the end. -/
structure Brings (sinks : List ExportKind) (j : Job) (ends : Except Failure JobOutcome → Prop)
    (segments : List Segment) (step : Step) : Prop where
  /-- The job ends as it should, and not otherwise. -/
  ended_iff : ∀ outcome, step.ended = some outcome ↔ ends outcome
  /-- The sinks hear of the segments and, if the job ends, of their release. -/
  notices_eq : step.notices = tellAll sinks (calls segments step.ended.isSome)
  /-- The trajectory grows by the segments. -/
  madeOf : ∀ before, j.session.trajectory.MadeOf before →
    step.job.session.trajectory.MadeOf (before ++ segments)

theorem Brings.congr {step : Step} (h : j.Brings sinks ends segments step)
    (hends : ∀ outcome, ends' outcome ↔ ends outcome) : j.Brings sinks ends' segments step :=
  ⟨fun outcome => (h.ended_iff outcome).trans (hends outcome).symm, h.notices_eq, h.madeOf⟩

/-- **First one step, then another.** -/
theorem Brings.following {first second : Step} (hfirst : j.Brings sinks ends segments first)
    (hgoing : first.ended = none) (hsecond : first.job.Brings sinks ends' more second) :
    j.Brings sinks ends' (segments ++ more) (second.following first) := by
  refine ⟨hsecond.ended_iff, ?_, fun before hbefore => ?_⟩
  · have hnotices := hfirst.notices_eq
    rw [hgoing] at hnotices
    simp only [Step.following, hnotices, hsecond.notices_eq, ← tellAll_append]
    simp [calls]
  · rw [← List.append_assoc]
    exact hsecond.madeOf _ (hfirst.madeOf _ hbefore)

/-- **A step that ends the job** releases the sinks after all that it has brought about. -/
theorem Brings.released {first : Step} (h : j.Brings sinks (fun _ => False) segments first)
    (hsinks : first.job.session.trajectory.sinks = sinks) (outcome : Except Failure JobOutcome) :
    j.Brings sinks (fun other => outcome = other) segments
      { first.job.showing.release.following first with ended := some outcome } := by
  have hgoing : first.ended = none := by
    cases hended : first.ended with
    | none => rfl
    | some outcome => exact ((h.ended_iff outcome).mp hended).elim
  have hnotices := h.notices_eq
  rw [hgoing] at hnotices
  have hreleased : first.job.showing.release.notices = tellAll sinks [.released] := by
    simp [release, absorb, showing, Session.releaseSinks, Trajectory.releaseSinks, hsinks, tellAll]
  refine ⟨fun other => by simp, ?_, fun before hbefore => (h.madeOf before hbefore).withSinks []⟩
  simp only [Step.following, hnotices, hreleased, ← tellAll_append]
  simp [calls]

/-- Where nothing happens nothing is brought about. -/
theorem brings_nil (sinks : List ExportKind) (j : Job) :
    j.Brings sinks (j.EndsBy []) (j.accepted []) (j.run []) := by
  refine ⟨fun outcome => ?_, rfl, fun before hbefore => ?_⟩
  · simp [not_endsBy_nil]
  · simpa [accepted] using hbefore

/-! ### A job that is under way -/

/-- **A job is under way**: it has been submitted and is running, and these sinks follow it. -/
structure Streaming (sinks : List ExportKind) (up : Bool) (j : Job) : Prop where
  /-- It has been submitted. -/
  submitted : j.submitted = true
  /-- Not everything is there. -/
  finished_eq : j.finished = false
  /-- The session has a running job. -/
  running : j.session.running = true
  /-- The session knows whether there is a connection. -/
  connected_eq : j.session.connected = up
  /-- Its flags agree. -/
  coherent : j.session.Coherent
  /-- The sinks are registered. -/
  sinks_eq : j.session.trajectory.sinks = sinks

namespace Streaming

/-- Which status is shown makes no difference. -/
theorem showing (h : j.Streaming sinks up) : j.showing.Streaming sinks up :=
  ⟨h.submitted, h.finished_eq, h.running, h.connected_eq, h.coherent, h.sinks_eq⟩

theorem verdict_eq (h : j.Streaming sinks up) : j.verdict = none := by
  simp [verdict, h.finished_eq, h.running]

/-- What happens is an event of the session, or nothing. -/
theorem react_cases (h : j.Streaming sinks up) (possible : Possible up occurrence up') (now : Nat) :
    (j.event? occurrence = none ∧ up' = up ∧ j.react now occurrence = { job := j }) ∨
      ∃ e timers, j.event? occurrence = some e ∧
        j.react now occurrence = absorb { j with timers } now (j.session.handle e) ∧
        (j.session.noted e).connected = up' ∧
        ∀ text, e = .text text → j.session.connected = true := by
  have reaction := reaction_react j now occurrence
  have hconnected := h.connected_eq
  generalize j.react now occurrence = after at reaction ⊢
  cases reaction with
  | heard e _ =>
    refine .inr ⟨e, j.timers, rfl, rfl, ?_⟩
    cases possible <;> simp [Session.noted, hconnected]
  | submitted hnot _ => simp [h.submitted] at hnot
  | notDue hdue =>
    cases possible
    exact .inl ⟨by simp [event?, hdue], rfl, rfl⟩
  | @ranOut timer _ hdue =>
    cases possible
    exact .inr ⟨.timer timer, _, by simp [event?, hdue], rfl, hconnected, by simp⟩
  | again _ | stopped _ | cancelled _ _ | graceOver _ | early _ => cases possible

/-- **The verdict on a job that has heard of an event** is that it has ended, if the event ends
it. -/
theorem verdict_absorb (h : j.Streaming sinks up) (he : j.event? occurrence = some e)
    (hup : ∀ text, e = .text text → j.session.connected = true) (timers : Timers) (now : Nat) :
    let after := (absorb { j with timers } now (j.session.handle e)).job.showing
    (after.verdict = none ∧ after.finished = false ∧ after.session.running = true ∧
        ∀ outcome, ¬ j.Ends occurrence outcome) ∨
      ∃ outcome, after.verdict = some outcome ∧
        ∀ other, j.Ends occurrence other ↔ outcome = other := by
  intro after
  have hsubmitted : after.submitted = true := h.submitted
  have hfinished : after.finished = (j.session.handle e).2.commands.contains .finished := by
    simp [after, absorb, Job.showing, h.finished_eq]
  have hsession : after.session = (j.session.handle e).1 := rfl
  have hoptions : after.options = j.options := rfl
  simp only [ends_iff he]
  -- the verdict asks for the end of the download first, and then for flags and status
  cases Session.fate_handle h.coherent h.running hup with
  | goesOn hr hf hfailed hcancelled =>
    refine .inl ⟨?_, ?_, hr, ?_⟩
    · simp [verdict, hfinished, hf, hsession, hr]
    · simpa [hfinished] using hf
    · simp [hf, hfailed, hcancelled]
  | done hf hanalysis hfailed hcancelled =>
    have hverdict : after.verdict =
        some (.ok (.completed (after.session.heightMap after.options.bins))) := by
      simp [verdict, hfinished, hf]
    refine .inr ⟨_, hverdict, fun other => ?_⟩
    have hmap : after.session.heightMap after.options.bins =
        (j.session.handle e).1.trajectory.lastFrame?.bind fun last =>
          HeightMap.ofFrame last.species last.frame j.options.bins := by
      rw [hsession, hoptions, Session.heightMap, hanalysis]
      rfl
    simp [hf, hfailed, hcancelled, hmap, eq_comm]
  | failed hsays hr hf hstatus =>
    refine .inr ⟨.error .jobFailed, ?_, fun other => ?_⟩
    · simp [verdict, hfinished, hf, hsubmitted, hsession, hr, hstatus]
    · have hnot : ¬ e.Says .cancelled := fun hc => by cases hsays.eq hc
      simp [hf, hsays, hnot, eq_comm]
  | cancelled hsays hr hf hstatus =>
    refine .inr ⟨.ok .cancelled, ?_, fun other => ?_⟩
    · simp [verdict, hfinished, hf, hsubmitted, hsession, hr, hstatus]
    · have hnot : ¬ e.Says .failed := fun hc => by cases hsays.eq hc
      simp [hf, hsays, hnot, eq_comm]

/-- What arrives goes to the trajectory and to the sinks, which stay registered. -/
theorem brings_absorb (h : j.Streaming sinks up) (he : j.event? occurrence = some e)
    (timers : Timers) (now : Nat) :
    j.Brings sinks (fun _ => False) (j.arrival? occurrence).toList
        (absorb { j with timers } now (j.session.handle e)) ∧
      (j.session.handle e).1.trajectory.sinks = sinks := by
  have hsinks := h.sinks_eq
  have harrival : j.arrival? occurrence = j.session.arrival? e := by simp [arrival?, he]
  rw [harrival]
  rcases Session.arrival_handle j.session e with
    ⟨hnone, ht, hnotices⟩ | ⟨segment, hsome, hm, ht, hnotices⟩
  · rw [hnone]
    refine ⟨⟨fun outcome => ?_, hnotices, fun before hbefore => ?_⟩, ht ▸ hsinks⟩
    · simp [absorb]
    · rw [Option.toList_none, List.append_nil]
      exact ht ▸ hbefore
  · rw [hsome]
    refine ⟨⟨fun outcome => ?_, ?_, fun before hbefore => ht ▸ hbefore.extend hm⟩, ht ▸ hsinks⟩
    · simp [absorb]
    · refine hnotices.trans ?_
      simp [Session.announcements, hsinks, tellAll, calls, Segment.call, absorb]

/-- **One step of a job that is under way** brings about what it should, and unless it ends the
job, the job is under way still. -/
theorem step (h : j.Streaming sinks up) (possible : Possible up occurrence up') (now : Nat) :
    j.Brings sinks (j.Ends occurrence) (j.arrival? occurrence).toList (j.step now occurrence) ∧
      ((j.step now occurrence).ended = none →
        (j.step now occurrence).job.Streaming sinks up') := by
  rcases h.react_cases possible now with
    ⟨hnone, rfl, hreact⟩ | ⟨e, timers, he, hreact, hup', hup⟩
  · -- nothing has happened
    have hverdict := h.showing.verdict_eq
    have harrival : j.arrival? occurrence = none := by simp [arrival?, hnone]
    rw [step_of_verdict (by rw [hreact]) (by rw [hreact]; exact hverdict), hreact, harrival]
    refine ⟨⟨fun outcome => ?_, rfl, fun before hbefore => ?_⟩, fun _ => h.showing⟩
    · simp [not_ends hnone]
    · rw [Option.toList_none, List.append_nil]
      exact hbefore
  · obtain ⟨brings, hsinks⟩ := h.brings_absorb he timers now
    have hgoing : (j.react now occurrence).ended = none := by
      rw [hreact]
      rfl
    rcases h.verdict_absorb he hup timers now with
      ⟨hverdict, hfinished, hr, hnot⟩ | ⟨outcome, hverdict, hends⟩
    · rw [step_of_verdict hgoing (by rw [hreact]; exact hverdict), hreact]
      refine ⟨⟨fun outcome => ?_, brings.notices_eq, brings.madeOf⟩, fun _ => ?_⟩
      · simp [absorb, hnot]
      · exact ⟨h.submitted, hfinished, hr, (Session.connected_handle _ _).trans hup',
          h.coherent.handle e, hsinks⟩
    · rw [step_of_verdict_eq_some hgoing (by rw [hreact]; exact hverdict), hreact]
      refine ⟨(brings.released hsinks outcome).congr hends, fun hended => ?_⟩
      cases hended

/-- **A job that is under way** ends with the first occurrence that ends it. -/
theorem run (h : j.Streaming sinks up) (script : Script up occurrences) :
    j.Brings sinks (j.EndsBy occurrences) (j.accepted occurrences) (j.run occurrences) := by
  -- a step that does not end the job leaves one that is under way, which is the invariant
  induction script generalizing j with
  | nil up => exact brings_nil sinks j
  | @cons up up' now occurrence later possible rest ih =>
    obtain ⟨first, streaming⟩ := h.step possible now
    cases hended : (j.step now occurrence).ended with
    | some outcome =>
      have hends := (first.ended_iff outcome).mp hended
      rw [run_cons_of_ended hended, accepted_cons_of_ended hended]
      exact first.congr fun _ => endsBy_cons_iff_of_ends hends
    | none =>
      have hnot (other : Except Failure JobOutcome) : ¬ j.Ends occurrence other := by
        rw [← first.ended_iff, hended]
        simp
      rw [run_cons_of_going hended, accepted_cons_of_going hended]
      exact (first.following hended (ih (streaming hended))).congr fun _ =>
        endsBy_cons_iff_of_not_ends hnot

end Streaming

end Job

end Deposition
