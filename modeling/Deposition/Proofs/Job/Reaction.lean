import Deposition.Job.Basic
import Deposition.Proofs.Session.Clock

/-!
# What one step of a job can do

A step of a job has two parts: the job reacts to what happens, and then its status is looked at and
may end it. `Deposition.Job.Reaction` lists the reactions, with the condition under which each of
them comes, and `Deposition.Job.reaction_react` says that there are no others; in a proof about jobs
there is from here on one case for each constructor. One of the reactions is to submit the
configuration, which has outcomes of its own (`Deposition.Job.Submits`).

Of a step that does not end the job the second part leaves nothing but the status that is shown
(`Deposition.Job.step_of_verdict`).
-/

namespace Deposition

namespace Job

variable {j j' : Job} {now : Nat} {occurrence : Occurrence}

/-! ### Submitting -/

/-- An archive that is opened registers, and nothing else of the job is touched. -/
theorem openArchive_eq_ok (h : j.openArchive = .ok j') : ∃ exports, ∃ sinks : List ExportKind,
    j' = { j with exports, session := sinks.foldl Session.registerSink j.session } := by
  unfold openArchive at h
  split at h
  · cases h
    exact ⟨j.exports, [], rfl⟩
  · split at h
    · cases h
    · cases h
      exact ⟨_, [.archive], rfl⟩

/-- So does an export to XYZ text. -/
theorem openXyz_eq_ok (h : j.openXyz = .ok j') : ∃ exports, ∃ sinks : List ExportKind,
    j' = { j with exports, session := sinks.foldl Session.registerSink j.session } := by
  unfold openXyz at h
  split at h
  · cases h
    exact ⟨j.exports, [], rfl⟩
  · split at h
    · cases h
    · cases h
      exact ⟨_, [.xyz], rfl⟩

/-- **What comes of submitting**: the job ends, or its submission goes through. -/
inductive Submits (j : Job) (now : Nat) : Step → Prop
  /-- The session refuses, or an export cannot be opened. Nothing is sent. -/
  | failed {step : Step} (hended : step.ended.isSome = true) (hsends : step.sends = [])
      (hsubmitted : step.job.submitted = j.submitted)
      (hconfiguration : step.job.configuration = j.configuration) : Submits j now step
  /-- The exports register, and the configuration is sent. -/
  | sent {session : Session ExportKind} {effects : Effects ExportKind}
      (hs : j.session.submit j.configuration = .ok (session, effects)) (sinks : List ExportKind)
      (exports : Exports) (notices : List (Notice ExportKind)) :
      Submits j now {
        job := { j with
          session := sinks.foldl Session.registerSink session
          timers := j.timers.obeyAll now effects.commands
          exports
          submitted := true }
        notices
        sends := [.submit j.configuration.submissionText] }

theorem submits_submit (j : Job) (now : Nat) : j.Submits now (j.submit now) := by
  unfold submit
  split
  · exact .failed rfl rfl rfl rfl
  · next session effects hs =>
    dsimp only
    split
    · exact .failed rfl rfl rfl rfl
    · next archived harchive =>
      obtain ⟨_, archive, rfl⟩ := openArchive_eq_ok harchive
      split
      · exact .failed rfl rfl rfl rfl
      · next opened hxyz =>
        obtain ⟨exports, xyz, rfl⟩ := openXyz_eq_ok hxyz
        obtain ⟨-, hcommands, -⟩ := Session.submit_eq_ok hs
        have hsends : effects.commands.filterMap sent? =
            [.submit j.configuration.submissionText] := by
          rw [hcommands]
          rfl
        have hfinished : .finished ∉ effects.commands := by simp [hcommands, Session.cancelTimers]
        have sent : j.Submits now _ :=
          .sent hs (archive ++ xyz) (exports.hearAll []).1 effects.notices
        simpa [Step.following, absorb, hsends, hfinished, Timers.obeyAll] using sent

/-! ### Reacting -/

/-- **The reactions of a job** to what happens. -/
inductive Reaction (j : Job) (now : Nat) : Occurrence → Step → Prop
  /-- The session hears of an event. -/
  | heard (e : Event) (h : e = .connected → j.submitted = true) :
      Reaction j now (.event e) (j.absorb now (j.session.handle e))
  /-- The connection is there for the first time, and the configuration is submitted. -/
  | submitted {step : Step} (h : j.submitted = false)
      (submits : (j.absorb now (j.session.handle .connected)).job.Submits now step) :
      Reaction j now (.event .connected)
        (step.following (j.absorb now (j.session.handle .connected)))
  /-- No timer is pending. -/
  | notDue (h : j.timers.nextDue? = none) : Reaction j now .timer { job := j }
  /-- The timer that is due runs out. -/
  | ranOut {timer : Timer} {time : Nat} (h : j.timers.nextDue? = some (timer, time)) :
      Reaction j now .timer
        (absorb { j with timers := j.timers.cancel timer } now (j.session.handle (.timer timer)))
  /-- The user interrupts once more. -/
  | again (h : j.interrupted = true) : Reaction j now .interrupt { job := j }
  /-- The user interrupts, and there is nothing to cancel. -/
  | stopped (h : j.interrupted = false) :
      Reaction j now .interrupt
        { job := { j with interrupted := true }, ended := some (.ok .cancelled) }
  /-- The user interrupts, and the session cancels. -/
  | cancelled {step : Session ExportKind × Effects ExportKind} (h : j.interrupted = false)
      (hs : j.session.cancel = .ok step) :
      Reaction j now .interrupt
        (absorb { j with interrupted := true, graceEnds := some (now + grace) } now step)
  /-- The server has not answered in time. -/
  | graceOver (h : j.graceEnds.isSome = true) :
      Reaction j now .graceOver { job := j, ended := some (.ok .cancelled) }
  /-- No answer is waited for. -/
  | early (h : j.graceEnds = none) : Reaction j now .graceOver { job := j }

/-- **A reaction is all that an occurrence brings about.** -/
theorem reaction_react (j : Job) (now : Nat) (occurrence : Occurrence) :
    j.Reaction now occurrence (j.react now occurrence) := by
  cases occurrence with
  | event e =>
    unfold react
    dsimp only
    split
    · next hc =>
      obtain ⟨rfl, hsubmitted⟩ := hc
      exact .submitted hsubmitted (submits_submit _ now)
    · next hc => exact .heard e (by simpa using hc)
  | timer =>
    unfold react
    dsimp only
    split
    · next hdue => exact .notDue hdue
    · next timer time hdue => exact .ranOut hdue
  | interrupt =>
    unfold react
    dsimp only
    split
    · next hi => exact .again hi
    · next hi =>
      split
      · exact .stopped (by simpa using hi)
      · next step hs => exact .cancelled (by simpa using hi) hs
  | graceOver =>
    unfold react
    dsimp only
    split
    · next hg => exact .graceOver hg
    · next hg => exact .early (by simpa using hg)

/-! ### Going on -/

/-- The job with its status shown. -/
def showing (j : Job) : Job := { j with shown := j.session.status }

/-- A job that has reacted and has no verdict goes on. -/
theorem step_of_verdict (hgoing : (j.react now occurrence).ended = none)
    (hverdict : (j.react now occurrence).job.showing.verdict = none) :
    j.step now occurrence =
      { j.react now occurrence with job := (j.react now occurrence).job.showing } := by
  unfold step
  dsimp only
  split
  · next outcome ho => simp [ho] at hgoing
  · split
    · next outcome hv => simp [showing, hv] at hverdict
    · rfl

/-- A job that has reacted and has a verdict ends with it, and its exports are released. -/
theorem step_of_verdict_eq_some {outcome : Except Failure JobOutcome}
    (hgoing : (j.react now occurrence).ended = none)
    (hverdict : (j.react now occurrence).job.showing.verdict = some outcome) :
    j.step now occurrence =
      { (j.react now occurrence).job.showing.release.following (j.react now occurrence) with
        ended := some outcome } := by
  unfold step
  dsimp only
  split
  · next other ho => simp [ho] at hgoing
  · split
    · next other hv =>
      obtain rfl : other = outcome := by simpa [showing, hv] using hverdict
      rfl
    · next hv => simp [showing, hv] at hverdict

/-- **A job goes on only so**: it has reacted, and has no verdict. -/
theorem going_of_step (hended : (j.step now occurrence).ended = none) :
    (j.react now occurrence).ended = none ∧
      (j.react now occurrence).job.showing.verdict = none := by
  unfold step at hended
  dsimp only at hended
  split at hended
  · next outcome ho =>
    split at hended
    · cases hended
    · simp [ho] at hended
  · next ho =>
    split at hended
    · cases hended
    · next hv => exact ⟨ho, hv⟩

/-- A job without a verdict is not finished. -/
theorem finished_of_verdict (h : j.verdict = none) : j.finished = false := by
  unfold verdict at h
  split at h
  · cases h
  · simpa using ‹¬ j.finished = true›

end Job

end Deposition
