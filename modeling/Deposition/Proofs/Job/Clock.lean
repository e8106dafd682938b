import Deposition.Proofs.Job.Reaction

/-!
# The timers of a job that is run

Whoever runs a job keeps the session and its timers side by side, and is the reason for looking at
the two together. Here it is shown that running a job leads to nothing that
`Deposition.Session.Reachable` does not cover: each step of a job that goes on is a deed of its
session, or a timer that runs out, or – when the configuration is submitted – a submission and the
exports that register after it, with the commands of the submission obeyed last.

What is said of reachable states is therefore true of every job, as long as it has not ended.
-/

namespace Deposition

namespace Timers

/-- The timer that is due is pending. -/
theorem pending_of_nextDue? {t : Timers} {timer : Timer} {time : Nat}
    (h : t.nextDue? = some (timer, time)) : t.Pending timer := by
  rcases t with ⟨_ | d, _ | r⟩
  · simp [nextDue?] at h
  · obtain ⟨rfl, rfl⟩ : .retry = timer ∧ r = time := by simpa [nextDue?] using h
    rfl
  · obtain ⟨rfl, rfl⟩ : .debounce = timer ∧ d = time := by simpa [nextDue?] using h
    rfl
  · simp only [nextDue?] at h
    split at h <;> cases h <;> rfl

end Timers

namespace Job

variable {timing : Timing} {j : Job}

/-- **The session and the timers of a job are in a state that they can reach.** -/
def Ticks (timing : Timing) (j : Job) : Prop := Session.Reachable timing j.session j.timers

theorem ticks_start (preferences : Preferences) (configuration : Configuration)
    (options : JobOptions) (files : Files) :
    (start preferences configuration options files).Ticks preferences.timing :=
  .start

/-- What is absorbed is a deed, and its commands are obeyed. -/
theorem ticks_absorb (h : j.Ticks timing) (now : Nat) (deed : Deed ExportKind)
    (hdeed : ∀ timer, deed ≠ .event (.timer timer)) :
    (j.absorb now (j.session.perform deed)).job.Ticks timing :=
  h.deed deed hdeed now

/-- **A submission that goes through** is a submission of the session, then what the exports
register, with the commands of the submission obeyed last. -/
theorem ticks_submits (h : j.Ticks timing) {now : Nat} {step : Step} (submits : j.Submits now step)
    (hended : step.ended = none) : step.job.Ticks timing := by
  cases submits with
  | failed hended' _ _ _ => simp [hended] at hended'
  | sent hs sinks exports notices =>
    -- the exports register before the commands are obeyed, but the order does not matter
    have submitted := h.deed (.submit j.configuration) (by simp) now
    rw [Session.perform_submit_ok hs] at submitted
    exact submitted.registerSinks sinks

/-- What happens to a job keeps it among the states that can be reached. -/
theorem ticks_reaction (h : j.Ticks timing) (now : Nat) {occurrence : Occurrence} {step : Step}
    (hclock : ∀ timer, occurrence ≠ .event (.timer timer))
    (reaction : j.Reaction now occurrence step) (hended : step.ended = none) :
    step.job.Ticks timing := by
  cases reaction with
  | heard e _ => exact ticks_absorb h now (.event e) fun timer he => hclock timer (by cases he; rfl)
  | submitted _ submits =>
    have first : (j.absorb now (j.session.handle .connected)).job.Ticks timing :=
      ticks_absorb h now (.event .connected) (by simp)
    exact ticks_submits first submits hended
  | ranOut hdue => exact h.runsOut (Timers.pending_of_nextDue? hdue) now
  | cancelled _ hs =>
    have cancelled := h.deed .cancel (by simp) now
    rw [Session.perform_cancel_ok hs] at cancelled
    exact cancelled
  | stopped _ | graceOver _ => simp at hended
  | notDue _ | again _ | early _ => exact h

/-- **Running a job.** A step of a job that goes on leads from reachable states to reachable states;
the connection of a job has nothing to say about timers. -/
theorem ticks_step (h : j.Ticks timing) (now : Nat) {occurrence : Occurrence}
    (hclock : ∀ timer, occurrence ≠ .event (.timer timer))
    (hended : (j.step now occurrence).ended = none) :
    (j.step now occurrence).job.Ticks timing := by
  obtain ⟨hgoing, hverdict⟩ := going_of_step hended
  have reaction : (j.react now occurrence).job.Ticks timing :=
    ticks_reaction h now hclock (reaction_react j now occurrence) hgoing
  rw [step_of_verdict hgoing hverdict]
  exact reaction

end Job

end Deposition
