import Deposition.Proofs.Job.Order
import Deposition.Proofs.Job.Submission

/-!
# Clients that wait for ever

A client has *stalled* if its job is running on a socket that is up, and yet there is nothing to
pick up, nothing to look at and no timer pending (`Deposition.Client.Stalled`). There is nothing
wrong in this as long as the server has the submission and is to speak next. But a client can stall
with its submission unwritten: the server closes the socket just when the job submits, and the
connection sees it first. It drops the submission and dials again, and the job, which has submitted,
leaves it at that.

Two things are shown.

* **This is the only way.** A client that has stalled has written its submission or has dropped it:
  a job that runs has submitted (`Deposition.Job.Live`), and then the submission is accounted for
  (`Deposition.Client.Accounted`).
* **There is no way back.** A client that has stalled stays as it is however the socket fares, until
  the server speaks or the user interrupts (`Deposition.Client.Waiting.run`). No timer saves it,
  since none is pending; and a server that has never heard of the job does not speak.
-/

namespace Deposition

namespace Job

variable {j : Job} {now : Nat} {occurrence : Occurrence} {after : Step}

/-! ### A job that waits for the server -/

/-- **The job has done all that it does by itself**: it runs, and no clock runs for it. -/
structure Idle (j : Job) : Prop where
  /-- The job is running. -/
  running : j.session.running = true
  /-- It has been submitted. -/
  submitted : j.submitted = true
  /-- It is not over. -/
  finished_eq : j.finished = false
  /-- No timer is pending. -/
  timers_eq : j.timers.isEmpty = true
  /-- No answer to an interruption is waited for. -/
  graceEnds_eq : j.graceEnds = none

/-- What may happen to a job while the server and the user are silent. -/
def Occurrence.isSilent : Occurrence → Bool
  | .event .connected | .event .disconnected | .timer | .graceOver => true
  | .event (.text _) | .event (.binary _) | .event (.timer _) | .interrupt => false

namespace Idle

/-- A connection that comes or goes is noted, and that is all. -/
theorem heard (h : j.Idle) {e : Event} (hsilent : (Occurrence.event e).isSilent = true) :
    (j.absorb now (j.session.handle e)).job.Idle ∧
      (j.absorb now (j.session.handle e)).sends = [] := by
  have hrunning : (j.session.handle e).1.running = true ∧
      (j.session.handle e).2.commands = [] := by
    cases e with
    | connected => exact ⟨h.running, rfl⟩
    | disconnected =>
      refine ⟨h.running, ?_⟩
      simp only [Session.handle, Session.onDisconnected]
      split <;> rfl
    | text _ | binary _ | timer _ => simp [Occurrence.isSilent] at hsilent
  obtain ⟨hrunning, hcommands⟩ := hrunning
  refine ⟨⟨hrunning, h.submitted, ?_, ?_, h.graceEnds_eq⟩, ?_⟩
  · simp [absorb, hcommands, h.finished_eq]
  · simpa [absorb, hcommands] using h.timers_eq
  · simp [absorb, hcommands]

theorem reaction (h : j.Idle) (hsilent : occurrence.isSilent = true)
    (reaction : j.Reaction now occurrence after) :
    after.job.Idle ∧ after.sends = [] ∧ after.ended = none := by
  cases reaction with
  | heard e _ => exact ⟨(h.heard hsilent).1, (h.heard hsilent).2, rfl⟩
  | submitted hsubmitted _ => simp [h.submitted] at hsubmitted
  | ranOut hdue => simp [Timers.nextDue?_eq_none_iff.mpr h.timers_eq] at hdue
  | graceOver hg => simp [h.graceEnds_eq] at hg
  | again _ | stopped _ | cancelled _ _ => simp [Occurrence.isSilent] at hsilent
  | notDue _ | early _ => exact ⟨h, rfl, rfl⟩

/-- There is no reason to end it. -/
theorem verdict_eq (h : j.Idle) : j.verdict = none := by
  simp [verdict, h.finished_eq, h.running]

/-- **A job that waits for the server goes on waiting** until it hears from the server or the user,
and sends nothing. -/
theorem step (h : j.Idle) (now : Nat) (hsilent : occurrence.isSilent = true) :
    (j.step now occurrence).job.Idle ∧ (j.step now occurrence).sends = [] ∧
      (j.step now occurrence).ended = none := by
  obtain ⟨idle, hsends, hended⟩ := h.reaction hsilent (reaction_react j now occurrence)
  have shown : (j.react now occurrence).job.showing.Idle :=
    ⟨idle.running, idle.submitted, idle.finished_eq, idle.timers_eq, idle.graceEnds_eq⟩
  rw [step_of_verdict hended shown.verdict_eq]
  exact ⟨shown, hsends, hended⟩

end Idle

end Job

namespace Connection

/-- What may happen to a connection while the server and the job are silent. -/
def Input.isSilent : Input → Bool
  | .check | .accepted | .refused | .lost | .received .control => true
  | .received (.text _) | .received (.binary _) | .outbound _ _ | .shutdown => false

/-- Nothing is passed on then but that the connection comes or goes. -/
theorem isSilent_of_forward {c : Connection} {input : Input} (hsilent : input.isSilent = true)
    {e : Event} (h : .forward e ∈ (c.step input).2) : (Job.Occurrence.event e).isSilent = true := by
  cases input with
  | check | accepted | refused | lost =>
    cases c <;> simp [step] at h
    all_goals simp [h, Job.Occurrence.isSilent]
  | received message =>
    cases message with
    | control => cases c <;> simp [step, event?] at h
    | text _ | binary _ => simp [Input.isSilent] at hsilent
  | outbound _ _ | shutdown => simp [Input.isSilent] at hsilent

end Connection

namespace Client

variable {c : Client}

/-! ### A client that waits for the server -/

/-- What a client may do while the server and the user are silent. -/
def Move.isSilent : Move → Bool
  | .received (.text _) | .received (.binary _) | .interrupt => false
  | .received .control | .check | .accepted | .refused | .lost | .pickUp _ | .lookAt | .timer
  | .graceOver => true

/-- **A client waits for the server**: its job does, nothing is to be picked up, and there is
nothing to look at but a connection that comes and goes. -/
structure Waiting (c : Client) : Prop where
  /-- The job has not ended. -/
  outcome_eq : c.outcome = none
  /-- The job waits. -/
  idle : c.job.Idle
  /-- Nothing is to be picked up. -/
  outbound_eq : c.outbound = []
  /-- No message of the server is to be looked at. -/
  inbound_silent : ∀ e ∈ c.inbound, (Job.Occurrence.event e).isSilent = true

namespace Waiting

theorem connectionStep (h : c.Waiting) {input : Connection.Input}
    (hsilent : input.isSilent = true) :
    (c.connectionStep input).1.Waiting ∧ ∀ text, .write text ∉ (c.connectionStep input).2 := by
  refine ⟨⟨h.outcome_eq, h.idle, h.outbound_eq, fun e he => ?_⟩, Connection.not_write ?_⟩
  · rcases List.mem_append.mp he with he | he
    · exact h.inbound_silent e he
    · exact Connection.isSilent_of_forward hsilent (mem_forwarded.mp he)
  · rintro message - rfl
    simp [Connection.Input.isSilent] at hsilent

theorem jobStep (h : c.Waiting) (now : Nat) (occurrence : Job.Occurrence)
    (hsilent : occurrence.isSilent = true) :
    (c.jobStep now occurrence).1.Waiting ∧
      ∀ text, .write text ∉ (c.jobStep now occurrence).2 := by
  obtain ⟨idle, hsends, hended⟩ := h.idle.step now hsilent
  unfold Client.jobStep
  dsimp only
  rw [if_neg (by simp [hended])]
  exact ⟨⟨hended, idle, by simp [hsends, h.outbound_eq], h.inbound_silent⟩, by simp⟩

/-- **A client that waits for the server goes on waiting** while the server and the user are silent,
and writes nothing. -/
theorem move (h : c.Waiting) (now : Nat) {m : Move} (hsilent : m.isSilent = true) :
    (c.move now m).1.Waiting ∧ ∀ text, .write text ∉ (c.move now m).2 := by
  unfold Client.move
  rw [if_neg (by simp [h.outcome_eq])]
  cases m with
  | check | accepted | refused | lost => exact h.connectionStep rfl
  | received message =>
    cases message with
    | control => exact h.connectionStep rfl
    | text _ | binary _ => simp [Move.isSilent] at hsilent
  | pickUp writable =>
    simp only [pickUp, h.outbound_eq]
    exact ⟨h, by simp⟩
  | interrupt => simp [Move.isSilent] at hsilent
  | timer => exact h.jobStep now .timer rfl
  | graceOver => exact h.jobStep now .graceOver rfl
  | lookAt =>
    dsimp only [lookAt]
    split
    · exact ⟨h, by simp⟩
    · next event rest hin =>
      have behind : Waiting { c with inbound := rest } :=
        ⟨h.outcome_eq, h.idle, h.outbound_eq, fun e he => h.inbound_silent e (by simp [hin, he])⟩
      exact behind.jobStep now (.event event) (h.inbound_silent event (by simp [hin]))

/-- **It waits for ever.** -/
theorem run (h : c.Waiting) {moves : List (Nat × Move)}
    (hsilent : ∀ m ∈ moves, m.2.isSilent = true) :
    (c.run moves).1.Waiting ∧ ∀ text, .write text ∉ (c.run moves).2 := by
  refine moves_induction (P := fun _ d actions => d.Waiting ∧ ∀ text, .write text ∉ actions) moves
    ⟨h, by simp⟩ fun _ now m hm ih => ?_
  obtain ⟨waiting, hwrite⟩ := ih.1.move now (hsilent (now, m) hm)
  exact ⟨waiting, fun text hmem => (List.mem_append.mp hmem).elim (ih.2 text) (hwrite text)⟩

end Waiting

/-! ### A submission that is lost -/

/-- **A client has stalled**: the job runs and knows of the socket that is up, and yet nothing is
under way and nothing is due. -/
structure Stalled (c : Client) : Prop where
  /-- The job is running. -/
  running : c.job.session.running = true
  /-- There is a socket. -/
  connection_eq : c.connection = .up
  /-- The job knows of it. -/
  connected : c.job.session.connected = true
  /-- Nothing is to be picked up. -/
  outbound_eq : c.outbound = []
  /-- Nothing is to be looked at. -/
  inbound_eq : c.inbound = []
  /-- No timer is pending. -/
  timers_eq : c.job.timers.isEmpty = true

namespace Stalled

variable {timing : Timing}

theorem outcome_eq (h : c.Stalled) (orderly : c.Orderly timing) : c.outcome = none := by
  cases hended : c.outcome with
  | none => rfl
  | some outcome =>
    have hc := orderly.connection_eq (by simp [hended])
    simp [h.connection_eq] at hc

/-- A client that has stalled waits for the server, whatever the server may wait for. -/
theorem waiting (h : c.Stalled) (orderly : c.Orderly timing) : c.Waiting := by
  have hgoing := h.outcome_eq orderly
  have live := orderly.live hgoing
  have idle : c.job.Idle := ⟨h.running, live.submitted_of_running h.running,
    orderly.finished_eq hgoing, h.timers_eq, live.graceEnds_of_running h.running⟩
  exact ⟨hgoing, idle, h.outbound_eq, by simp [h.inbound_eq]⟩

end Stalled

/-- **What a client has stalled on.** Its submission was never written exactly if the connection has
picked it up and dropped it. In this case as in the other the client waits for ever, writing
nothing, for a server that is silent; but in this case the server has never heard of the job. -/
theorem unwritten_iff_dropped (preferences : Preferences) (configuration : Configuration)
    (options : JobOptions) (files : Files) {moves : List (Nat × Move)} {c : Client}
    {actions : List Connection.Action}
    (hrun : (start preferences configuration options files).run moves = (c, actions))
    (h : c.Stalled) :
    (.write configuration.submissionText ∉ actions ↔
      .submit configuration.submissionText ∈
        (start preferences configuration options files).allDropped moves) ∧
    ∀ later : List (Nat × Move), (∀ m ∈ later, m.2.isSilent = true) →
      (c.run later).1.outcome = none ∧ ∀ text, .write text ∉ (c.run later).2 := by
  have orderly := (orderly_start preferences configuration options files).run moves
  have accounted := accounted_run preferences configuration options files moves
  simp only [hrun] at orderly accounted
  have waiting := h.waiting orderly
  refine ⟨?_, fun later hsilent => ?_⟩
  · have hunwritten := accounted.unwritten_iff waiting.idle.submitted
    rwa [h.outbound_eq, List.append_nil] at hunwritten
  · obtain ⟨still, hwrite⟩ := waiting.run hsilent
    exact ⟨still.outcome_eq, hwrite⟩

/-- A configuration with one species. -/
def ethanol : Configuration := ⟨[⟨"ETH", 1⟩], []⟩

/-- Its client, with default preferences and nothing to leave behind but the height map. -/
def lone : Client := start {} ethanol { bins := 10 } {}

/-- The server accepts the socket and closes it at once. The job has not seen that when it submits,
and the connection picks the submission up while there is no socket; then there is one again. -/
def closedAtOnce : List (Nat × Move) :=
  [(0, .check), (0, .accepted), (0, .lookAt), (0, .lost), (0, .pickUp true), (0, .lookAt),
    (5000, .check), (5000, .accepted), (5000, .lookAt)]

theorem actions_closedAtOnce : (lone.run closedAtOnce).2 =
    [.dial, .forward .connected, .forward .disconnected, .dial, .forward .connected] := rfl

theorem allDropped_closedAtOnce :
    lone.allDropped closedAtOnce = [.submit ethanol.submissionText] := rfl

theorem stalled_closedAtOnce : (lone.run closedAtOnce).1.Stalled := ⟨rfl, rfl, rfl, rfl, rfl, rfl⟩

/-- This client stalls, and its submission is written to neither of the two sockets. -/
theorem unwritten_of_closedAtOnce :
    (lone.run closedAtOnce).1.Stalled ∧
      .write ethanol.submissionText ∉ (lone.run closedAtOnce).2 ∧
      ∀ later : List (Nat × Move), (∀ m ∈ later, m.2.isSilent = true) →
        ((lone.run closedAtOnce).1.run later).1.outcome = none ∧
          ∀ text, .write text ∉ ((lone.run closedAtOnce).1.run later).2 := by
  have hrun : lone.run closedAtOnce = ((lone.run closedAtOnce).1, (lone.run closedAtOnce).2) := rfl
  have hdropped : .submit ethanol.submissionText ∈ lone.allDropped closedAtOnce := by
    rw [allDropped_closedAtOnce]
    exact List.mem_singleton.mpr rfl
  obtain ⟨hiff, hlater⟩ :=
    unwritten_iff_dropped {} ethanol { bins := 10 } {} hrun stalled_closedAtOnce
  exact ⟨stalled_closedAtOnce, hiff.mpr hdropped, hlater⟩

/-- **A submission can be lost**: a client stalls that has never written anything. -/
theorem stalled_without_writing : ethanol.validate = .ok () ∧ (lone.run closedAtOnce).1.Stalled ∧
    ∀ text, .write text ∉ (lone.run closedAtOnce).2 := by
  refine ⟨rfl, stalled_closedAtOnce, ?_⟩
  rw [actions_closedAtOnce]
  simp

end Client

end Deposition
