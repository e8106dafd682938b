import Deposition.Proofs.Job.Clock
import Deposition.Proofs.Job.Run

/-!
# What holds of every client

A client is *in order* (`Deposition.Client.Orderly`) if its job is as a job is that goes on, or if
the job has ended and the connection with it. For the job this says three things: a running job has
been submitted and not been cancelled (`Deposition.Job.Live`), it is not finished, and its session
and its timers are in a state that they can reach (`Deposition.Job.Ticks`).

The last of these has a condition that only the whole client meets: a job must not be told that a
timer runs out but by its own clock. The events it looks at come from the connection, and the
connection has nothing to say about timers.

A job that has ended is no longer looked at, and what it leaves behind – it may be marked as running
still – is not constrained. That it has ended can be told from the connection.
-/

namespace Deposition

namespace Job

variable {j j' : Job} {now : Nat} {occurrence : Occurrence} {after : Step}

/-! ### What a running job has done -/

/-- **A job that runs has been submitted, and has not been cancelled**: the time for the server's
answer to an interruption is not running. -/
structure Live (j : Job) : Prop where
  /-- Nothing runs before the submission. -/
  submitted_of_running : j.session.running = true → j.submitted = true
  /-- Nothing runs after a cancellation. -/
  graceEnds_of_running : j.session.running = true → j.graceEnds = none
  /-- Only what was submitted is cancelled. -/
  submitted_of_graceEnds : j.graceEnds.isSome = true → j.submitted = true

namespace Live

theorem of_eq (h : j.Live) (hsubmitted : j'.submitted = j.submitted)
    (hgrace : j'.graceEnds = j.graceEnds)
    (hrunning : j'.session.running = true → j.session.running = true) : j'.Live :=
  ⟨fun hr => hsubmitted.trans (h.submitted_of_running (hrunning hr)),
    fun hr => hgrace.trans (h.graceEnds_of_running (hrunning hr)),
    fun hg => hsubmitted.trans (h.submitted_of_graceEnds (hgrace ▸ hg))⟩

theorem reaction (h : j.Live) (reaction : j.Reaction now occurrence after)
    (hended : after.ended = none) : after.job.Live := by
  cases reaction with
  | heard e _ => exact h.of_eq rfl rfl Session.running_of_handle
  | submitted hsubmitted submits =>
    cases submits with
    | failed hfailed _ _ _ => simp_all [Step.following]
    | sent _ _ _ _ =>
      -- a job that has not submitted has not been cancelled either
      have hgrace : j.graceEnds = none := by
        cases hg : j.graceEnds with
        | none => rfl
        | some time =>
          have := h.submitted_of_graceEnds (by simp [hg])
          simp_all
      exact ⟨fun _ => rfl, fun _ => hgrace, fun _ => rfl⟩
  | @ranOut timer _ _ =>
    exact h.of_eq rfl rfl (Session.running_of_handle (e := .timer timer))
  | @cancelled step _ hs =>
    obtain ⟨session, effects⟩ := step
    obtain ⟨hr, rfl, -, -⟩ := Session.cancel_eq_ok hs
    have hrest : Session.running { j.session.stopped with pending := true } = false := rfl
    refine ⟨fun hr' => absurd hr' ?_, fun hr' => absurd hr' ?_, fun _ => h.submitted_of_running hr⟩
    · simp [absorb, hrest]
    · simp [absorb, hrest]
  | stopped _ | graceOver _ => simp at hended
  | notDue _ | again _ | early _ => exact h

theorem step (h : j.Live) (hended : (j.step now occurrence).ended = none) :
    (j.step now occurrence).job.Live := by
  obtain ⟨hgoing, hverdict⟩ := going_of_step hended
  have live := h.reaction (reaction_react j now occurrence) hgoing
  rw [step_of_verdict hgoing hverdict]
  exact live.of_eq rfl rfl id

end Live

/-- A job that is finished does not go on. -/
theorem finished_step (hended : (j.step now occurrence).ended = none) :
    (j.step now occurrence).job.finished = false := by
  obtain ⟨hgoing, hverdict⟩ := going_of_step hended
  rw [step_of_verdict hgoing hverdict]
  exact finished_of_verdict hverdict

end Job

/-- The connection has nothing to say about timers. -/
theorem Connection.not_forward_timer {c : Connection} {input : Input} (timer : Timer) :
    .forward (.timer timer) ∉ (c.step input).2 := by
  cases c with
  | up =>
    cases input with
    | received message => cases message <;> simp [step, event?]
    | outbound message writable => cases writable <;> simp [step]
    | _ => simp [step]
  | _ => cases input <;> simp [step]

namespace Client

variable {timing : Timing} {c : Client}

theorem mem_forwarded {actions : List Connection.Action} {e : Event} :
    e ∈ actions.filterMap forwarded? ↔ .forward e ∈ actions := by
  rw [List.mem_filterMap]
  constructor
  · rintro ⟨action, hmem, hforward⟩
    obtain rfl : action = .forward e := by cases action <;> simp_all [forwarded?]
    exact hmem
  · exact fun hmem => ⟨_, hmem, rfl⟩

/-- **A client is in order.** -/
structure Orderly (timing : Timing) (c : Client) : Prop where
  /-- A running job has been submitted and not been cancelled. -/
  live : c.outcome = none → c.job.Live
  /-- A job that goes on is not finished. -/
  finished_eq : c.outcome = none → c.job.finished = false
  /-- Its session and its timers are in a state that they can reach. -/
  ticks : c.outcome = none → c.job.Ticks timing
  /-- What is to be looked at has come from the connection. -/
  not_timer : ∀ timer, .timer timer ∉ c.inbound
  /-- The connection has ended with the job. -/
  connection_eq : c.outcome.isSome = true → c.connection = .ended

namespace Orderly

theorem connectionStep (h : c.Orderly timing) (hgoing : c.outcome = none)
    (input : Connection.Input) : (c.connectionStep input).1.Orderly timing := by
  refine ⟨fun _ => h.live hgoing, fun _ => h.finished_eq hgoing, fun _ => h.ticks hgoing,
    fun timer hmem => ?_, fun hended => ?_⟩
  · rcases List.mem_append.mp hmem with hmem | hmem
    · exact h.not_timer timer hmem
    · exact Connection.not_forward_timer timer (mem_forwarded.mp hmem)
  · simp [Client.connectionStep, hgoing] at hended

theorem jobStep (h : c.Orderly timing) (hgoing : c.outcome = none) (now : Nat)
    {occurrence : Job.Occurrence} (hclock : ∀ timer, occurrence ≠ .event (.timer timer)) :
    (c.jobStep now occurrence).1.Orderly timing := by
  unfold Client.jobStep
  dsimp only
  split
  · next hended =>
    -- the job has ended, and so does the connection
    have hsome (hnone : (c.job.step now occurrence).ended = none) : False := by
      simp [hnone] at hended
    refine ⟨fun hnone => (hsome hnone).elim, fun hnone => (hsome hnone).elim,
      fun hnone => (hsome hnone).elim, fun timer hmem => ?_, fun _ => ?_⟩
    · rcases List.mem_append.mp hmem with hmem | hmem
      · exact h.not_timer timer hmem
      · exact Connection.not_forward_timer timer (mem_forwarded.mp hmem)
    · cases c.connection <;> simp [Client.connectionStep, Connection.step]
  · next hended =>
    exact ⟨fun hnone => (h.live hgoing).step hnone, Job.finished_step,
      fun hnone => Job.ticks_step (h.ticks hgoing) now hclock hnone, h.not_timer,
      fun hended' => absurd hended' hended⟩

/-- **Every move keeps a client in order.** -/
theorem move (h : c.Orderly timing) (now : Nat) (m : Move) : (c.move now m).1.Orderly timing := by
  cases hgoing : c.outcome with
  | some outcome =>
    rw [move_of_outcome (by simp [hgoing])]
    exact h
  | none =>
    unfold Client.move
    rw [if_neg (by simp [hgoing])]
    cases m with
    | check | accepted | refused | received _ | lost => exact h.connectionStep hgoing _
    | timer | interrupt | graceOver => exact h.jobStep hgoing now (by simp)
    | pickUp writable =>
      dsimp only [pickUp]
      split
      · exact h
      · next message rest _ =>
        have picked : Orderly timing { c with outbound := rest } :=
          ⟨h.live, h.finished_eq, h.ticks, h.not_timer, h.connection_eq⟩
        split
        · exact picked.connectionStep hgoing _
        · exact h
    | lookAt =>
      dsimp only [lookAt]
      split
      · exact h
      · next event rest hin =>
        have looked : Orderly timing { c with inbound := rest } :=
          ⟨h.live, h.finished_eq, h.ticks,
            fun timer hmem => h.not_timer timer (by simp [hin, hmem]), h.connection_eq⟩
        refine looked.jobStep hgoing now fun timer he => h.not_timer timer ?_
        cases he
        simp [hin]

/-- **A client is in order after any moves.** -/
theorem run (h : c.Orderly timing) (moves : List (Nat × Move)) :
    (c.run moves).1.Orderly timing :=
  moves_induction (P := fun _ d _ => d.Orderly timing) moves h fun _ now m _ ih => ih.move now m

end Orderly

theorem orderly_start (preferences : Preferences) (configuration : Configuration)
    (options : JobOptions) (files : Files) :
    (start preferences configuration options files).Orderly preferences.timing := by
  have live : (Job.start preferences configuration options files).Live := by
    refine ⟨?_, ?_, ?_⟩ <;> simp [Job.start]
  exact ⟨fun _ => live, fun _ => rfl, fun _ => Job.ticks_start _ _ _ _, by simp [start],
    by simp [start]⟩

end Client

end Deposition
