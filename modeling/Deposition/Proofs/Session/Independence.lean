import Deposition.Proofs.Session.Run
import Deposition.Proofs.Session.Turn

/-!
# Jobs are independent

A session is used for one job after the other, and everything that it keeps belongs to a job: which
segment comes next, what was announced, the frames and their species, who follows them, whether a
request is armed, whether the job has failed or can be analysed. What was left over from one job
would be taken for the next one's.

Nothing is. A submission that is accepted makes of any session the one that it makes of a session
that is new and has just been connected (`Deposition.Session.submit_eq_fresh`), and what is to be
done about it is the same; the sinks of the job before are released, and that is the only trace of
it. Two things are needed besides. A session keeps its timing through everything that is done to it
(`Deposition.Session.timing_run`), so "new" can be said of the session that it once was; and a
submission is accepted only on a connection (`Deposition.Session.submit_eq_ok_iff`), so that the
flag that is carried over is the same in both.

A submission that is refused, on the other hand, leaves everything as it is, and what is done later
is as if it had not been made.
-/

namespace Deposition

/-- There is something to deposit exactly if some ratio is not zero. -/
theorem Configuration.validate_eq_ok_iff {c : Configuration} :
    c.validate = .ok () ↔ ∃ i ∈ c.mixture, i.ratio ≠ 0 := by
  unfold validate
  split
  · next h => simpa using h
  · next h => simpa using h

namespace Session

variable {σ : Type} {s s' : Session σ} {c : Configuration}

/-! ### When a submission is accepted -/

theorem submitRejection?_eq_none_iff : s.submitRejection? c = none ↔
    s.connected = true ∧ s.pending = false ∧ s.running = false ∧ ∃ i ∈ c.mixture, i.ratio ≠ 0 := by
  rw [← Configuration.validate_eq_ok_iff, submitRejection?]
  cases s.connected <;> cases s.pending <;> cases s.running <;> cases c.validate <;> simp

/-- **A submission is accepted** on a connection, if no request is unanswered, no job is running,
and there is something to deposit; and otherwise it is refused. -/
theorem submit_eq_ok_iff : (∃ step, s.submit c = .ok step) ↔
    s.connected = true ∧ s.pending = false ∧ s.running = false ∧ ∃ i ∈ c.mixture, i.ratio ≠ 0 := by
  rw [← submitRejection?_eq_none_iff, submit]
  cases s.submitRejection? c <;> simp

/-! ### What is kept -/

theorem Look.timing_eq {commands : List Command} (look : s.Look s' commands) :
    s'.timing = s.timing := by
  cases look <;> rfl

theorem Turn.timing_eq {e : Event} {commands : List Command} {notices : List (Notice σ)}
    (turn : s.Turn e s' commands notices) : s'.timing = s.timing := by
  cases turn with
  | announced _ _ look => exact look.timing_eq
  | accepted _ _ _ _ look => exact look.timing_eq
  | lookedAgain _ _ look => exact look.timing_eq
  | _ => rfl

theorem Answer.timing_eq {deed : Deed σ} {commands : List Command} {notices : List (Notice σ)}
    (answer : s.Answer deed s' commands notices) : s'.timing = s.timing := by
  cases answer with
  | handled e => rw [(turn_handle s e).timing_eq, timing_noted]
  | _ => rfl

/-- **A session keeps its timing.** -/
theorem timing_run (s : Session σ) (deeds : List (Deed σ)) :
    (s.run deeds).1.timing = s.timing :=
  run_induction (P := fun u _ => u.timing = s.timing) rfl rfl fun deed _ u _ hu =>
    (answer_perform u deed).timing_eq.trans hu

/-! ### A submission starts over -/

/-- A session that is new and has just been connected. -/
def fresh (timing : Timing) : Session σ := (onConnected { timing }).1

/-- What is brought about for a job that is submitted, whatever was before. -/
def submission (c : Configuration) : Effects σ where
  commands := cancelTimers ++ [.send (.submit c.submissionText)]
  log := [Log.info "submitting job" [("job", .text c.jobName)]]

theorem submit_of_accepted (h : s.submitRejection? c = none) :
    s.submit c = .ok (s.started, s.releaseSinks.2.followedBy (submission c)) := by
  rw [submit, h]
  simp [Effects.followedBy, submission, releaseSinks, Trajectory.clear, Trajectory.releaseSinks,
    started]

/-- **A submission makes of any session what it makes of a new one**, and what it brings about is
the same, after the release of the sinks. -/
theorem submit_eq_fresh {step : Session σ × Effects σ} (h : s.submit c = .ok step) :
    ∃ said, (fresh s.timing).submit c = .ok (step.1, said) ∧
      step.2 = s.releaseSinks.2.followedBy said := by
  obtain ⟨hconnected, hpending, hrunning, hmixture⟩ := submit_eq_ok_iff.mp ⟨_, h⟩
  have haccepted : s.submitRejection? c = none :=
    submitRejection?_eq_none_iff.mpr ⟨hconnected, hpending, hrunning, hmixture⟩
  have hfresh : (fresh s.timing : Session σ).submitRejection? c = none :=
    submitRejection?_eq_none_iff.mpr ⟨rfl, rfl, rfl, hmixture⟩
  rw [submit_of_accepted haccepted, Except.ok.injEq] at h
  subst h
  refine ⟨submission c, ?_, rfl⟩
  rw [submit_of_accepted hfresh]
  simp [started, hconnected, fresh, onConnected, Effects.followedBy, releaseSinks,
    Trajectory.releaseSinks]

/-- **Jobs are independent.** Whatever was done to a session since it was new: a submission is
accepted exactly if there is a connection, nothing is pending, no job runs and some ratio is not
zero. If it is refused, the session is as before and nothing is to be done. If it is accepted, the
session is the one that the submission makes of a new session that has just been connected, with the
same to be done, and so it stays: whatever is done later, the session and everything that is brought
about are those of the new session, but for the release of the sinks at the start. -/
theorem jobs_independent {timing : Timing} {history : List (Deed σ)} {s : Session σ}
    {told : Effects σ} (hrun : run { timing } history = (s, told)) (c : Configuration) :
    ((∃ step, s.submit c = .ok step) ↔ s.connected = true ∧ s.pending = false ∧
        s.running = false ∧ ∃ i ∈ c.mixture, i.ratio ≠ 0) ∧
      (∀ rejection, s.submit c = .error rejection → s.perform (.submit c) = (s, {})) ∧
      ∀ step, s.submit c = .ok step →
        (∃ said, (fresh timing).submit c = .ok (step.1, said) ∧
          said.commands = step.2.commands) ∧
        ∀ later, (s.run (.submit c :: later)).1 = ((fresh timing).run (.submit c :: later)).1 ∧
          (s.run (.submit c :: later)).2 =
            s.releaseSinks.2.followedBy ((fresh timing).run (.submit c :: later)).2 := by
  refine ⟨submit_eq_ok_iff, fun _ h => perform_submit_error h, fun step h => ?_⟩
  have htiming : s.timing = timing := by
    simpa [hrun] using timing_run ({ timing } : Session σ) history
  obtain ⟨said, hfresh, hsaid⟩ := submit_eq_fresh h
  rw [htiming] at hfresh
  refine ⟨⟨said, hfresh, by simp [hsaid, releaseSinks]⟩, fun later => ?_⟩
  rw [run_cons, run_cons, perform_submit_ok h, perform_submit_ok hfresh]
  exact ⟨rfl, by rw [hsaid, Effects.followedBy_assoc]⟩

/-- A job after one that has failed, with a frame and a sink left over: its submission is accepted,
and whatever is done later is done as to a new session, once the sink is released. -/
theorem jobs_independent_of_failed :
    ∃ (history : List (Deed Unit)) (s : Session Unit) (told : Effects Unit) (c : Configuration),
      run {} history = (s, told) ∧ s.failed = true ∧ s.trajectory.frames = [[.origin]] ∧
      s.trajectory.sinks = [()] ∧ (∃ step, s.submit c = .ok step) ∧
      ∀ later, (s.run (.submit c :: later)).1 = ((fresh {}).run (.submit c :: later)).1 ∧
        (s.run (.submit c :: later)).2 = Effects.followedBy { notices := [⟨(), .released⟩] }
          ((fresh {}).run (.submit c :: later)).2 := by
  obtain ⟨buffer, hd⟩ : ∃ buffer, Segment.decode buffer = .ok ⟨1, [7], [[.origin]]⟩ :=
    ⟨Segment.encode 1 [7] [[.origin]], rfl⟩
  obtain ⟨text, hp⟩ : ∃ text, ServerMessage.parse text = .ok (.newFrames ⟨2, 3⟩) :=
    ⟨"new_frames\x7b\"l\":2,\"f\":3\x7d", by cbv⟩
  obtain ⟨bad, hbad⟩ : ∃ text, ServerMessage.parse text = .ok .failed := ⟨"failed", rfl⟩
  let c : Configuration := ⟨[⟨"ETH", 1⟩], []⟩
  let history : List (Deed Unit) := [.event .connected, .submit c, .register (),
    .event (.text text), .event (.binary buffer), .event (.text bad)]
  obtain ⟨s, told, hrun, hfailed, hframes, hsinks, hready⟩ : ∃ s told, run {} history = (s, told) ∧
      s.failed = true ∧ s.trajectory.frames = [[.origin]] ∧ s.trajectory.sinks = [()] ∧
      s.connected = true ∧ s.pending = false ∧ s.running = false := by
    refine ⟨(run {} history).1, (run {} history).2, rfl, ?_⟩
    simp only [history, run_cons, Session.perform, Session.handle, onText, onBinary, hp, hd, hbad]
    exact ⟨rfl, rfl, rfl, rfl, rfl, rfl⟩
  obtain ⟨hiff, -, hok⟩ := jobs_independent hrun c
  obtain ⟨step, hstep⟩ := hiff.mpr ⟨hready.1, hready.2.1, hready.2.2, ⟨"ETH", 1⟩, by simp [c]⟩
  refine ⟨history, s, told, c, hrun, hfailed, hframes, hsinks, ⟨step, hstep⟩, fun later => ?_⟩
  have hlater := (hok step hstep).2 later
  simpa [releaseSinks, Trajectory.releaseSinks, hsinks] using hlater

end Session

end Deposition
