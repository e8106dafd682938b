import Deposition.Proofs.Session.Run
import Deposition.Proofs.Session.Turn
import Deposition.Proofs.Trajectory.Sinks

/-!
# Following a session

Whoever follows a job is registered with a session, and it is the trajectory of the session that
tells them something. Of what is done to a session, four things reach the trajectory: a submission
that is accepted starts it over, sinks are registered and released, and the segment that is awaited
is handed to it, which may still refuse it. `Deposition.Session.operation?` says which operation a
deed is. A session does nothing to its trajectory besides, and hides nothing of what the trajectory
says, so that a run of a session *is* a run of its trajectory as far as the sinks are concerned
(`Deposition.Session.run_operations`), and what is known of the one is known of the other.
-/

namespace Deposition

namespace Session

variable {σ : Type} {s s' : Session σ}

/-- **What a deed is to the trajectory** of the session that it is done to. -/
def operation? (s : Session σ) : Deed σ → Option (Trajectory.Operation σ)
  | .submit c => if (s.submit c).isOk then some .clear else none
  | .register sink => some (.register sink)
  | .release => some .release
  | .event (.binary buffer) =>
    match Segment.decode buffer with
    | .error _ => none
    | .ok segment =>
      if s.running && s.flow.expects segment.id then some (.append segment) else none
  | .cancel | .event _ => none

/-- What several deeds are to it. -/
def operations (s : Session σ) : List (Deed σ) → List (Trajectory.Operation σ)
  | [] => []
  | deed :: deeds => (s.operation? deed).toList ++ (s.perform deed).1.operations deeds

/-- That an event is noted makes no difference to it. -/
theorem operation?_noted (s : Session σ) (e : Event) :
    (s.noted e).operation? (.event e) = s.operation? (.event e) := by
  cases e <;> rfl

/-- A session without a running job hands nothing to its trajectory. -/
theorem operation?_of_resting (hr : s.running = false) (e : Event) :
    s.operation? (.event e) = none := by
  cases e with
  | binary buffer =>
    rw [operation?]
    cases Segment.decode buffer <;> simp [hr]
  | _ => rfl

/-- Bytes that are of no use to a session are of none to its trajectory. -/
theorem run_operation?_of_unwanted {buffer : Bytes}
    (h : ∀ segment, Segment.decode buffer = .ok segment →
      s.flow.expects segment.id = true → s.trajectory.mismatch? segment ≠ none) :
    s.trajectory.run (s.operation? (.event (.binary buffer))).toList = (s.trajectory, []) := by
  rw [operation?]
  cases hd : Segment.decode buffer with
  | error _ => rfl
  | ok segment =>
    dsimp only
    split_ifs with hawaited
    · obtain ⟨error, herror⟩ := Option.ne_none_iff_exists'.mp
        (h segment hd (Bool.and_eq_true_iff.mp hawaited).2)
      rw [Option.toList_some, Trajectory.run_cons, Trajectory.perform_append_error herror]
      rfl
    · rfl

/-- **A turn** is to the trajectory what the event is. -/
theorem Turn.run_operation? {e : Event} {commands : List Command} {notices : List (Notice σ)}
    (turn : s.Turn e s' commands notices) :
    s.trajectory.run (s.operation? (.event e)).toList = (s'.trajectory, notices) := by
  cases turn with
  | ignored h =>
    cases h with
    | resting hr => rw [operation?_of_resting hr]; rfl
    | unwanted h => exact run_operation?_of_unwanted h
    | _ => rfl
  | accepted hr hd he hm look =>
    rw [operation?, hd]
    dsimp only
    rw [if_pos (Bool.and_eq_true_iff.mpr ⟨hr, he⟩), Option.toList_some, Trajectory.run_cons,
      Trajectory.perform_append_ok hm, look.trajectory_eq]
    simp [Trajectory.run, announcements, appending]
  | announced _ _ look => rw [look.trajectory_eq]; rfl
  | lookedAgain _ _ look => rw [look.trajectory_eq]; rfl
  | _ => rfl

/-- **One deed** is to the trajectory what `Deposition.Session.operation?` says. -/
theorem run_operation? (s : Session σ) (deed : Deed σ) :
    s.trajectory.run (s.operation? deed).toList =
      ((s.perform deed).1.trajectory, (s.perform deed).2.notices) := by
  cases deed with
  | submit c =>
    rw [operation?]
    cases h : s.submit c with
    | error _ => rw [perform_submit_error h]; rfl
    | ok step =>
      obtain ⟨s', effects⟩ := step
      obtain ⟨rfl, -, hnotices⟩ := submit_eq_ok h
      rw [perform_submit_ok h, hnotices]
      exact congrArg (Prod.mk _) (List.append_nil _)
  | cancel =>
    cases h : s.cancel with
    | error _ => rw [perform_cancel_error h]; rfl
    | ok step =>
      obtain ⟨s', effects⟩ := step
      obtain ⟨-, rfl, -, hnotices⟩ := cancel_eq_ok h
      rw [perform_cancel_ok h, hnotices]
      rfl
  | register sink => rfl
  | release => exact congrArg (Prod.mk _) (List.append_nil _)
  | event e =>
    have hturn := (turn_handle s e).run_operation?
    rwa [operation?_noted, trajectory_noted] at hturn

/-- **A run of a session is a run of its trajectory.** -/
theorem run_operations (s : Session σ) (deeds : List (Deed σ)) :
    s.trajectory.run (s.operations deeds) =
      ((s.run deeds).1.trajectory, (s.run deeds).2.notices) := by
  induction deeds generalizing s with
  | nil => rfl
  | cons deed deeds ih =>
    rw [operations, Trajectory.run_append, run_operation?, ih, run_cons, Effects.notices_followedBy]

/-- **Sinks are told of every segment once, and once that they are released.** Whatever is done to a
new trajectory, a sink is told of the segments that are taken after it was registered and before the
sinks are released or the trajectory starts over, of each with its id, the species of the job and
the frames that are new; then it is told that it is released, if it ever is; and then nothing. Of
one segment the sinks are told in the order of their registration, and of a segment that is refused
none is told. The same holds of whatever is done to a new session, where a submission that is
accepted lets the trajectory start over. -/
theorem sinks_are_told_once [DecidableEq σ] :
    (∀ ops : List (Trajectory.Operation σ), Trajectory.Followed ops (Trajectory.run {} ops).2) ∧
    ∀ (timing : Timing) (deeds : List (Deed σ)),
      Trajectory.Followed (operations { timing } deeds) (run { timing } deeds).2.notices ∧
      (run { timing } deeds).1.trajectory =
        (Trajectory.run {} (operations { timing } deeds)).1 := by
  refine ⟨Trajectory.followed_run, fun timing deeds => ?_⟩
  have hrun : Trajectory.run {} (operations { timing } deeds) = _ :=
    run_operations ({ timing } : Session σ) deeds
  have followed := Trajectory.followed_run (operations ({ timing } : Session σ) deeds)
  rw [hrun] at followed ⊢
  exact ⟨followed, rfl⟩

/-- Two sinks of one name, the second of which comes after the first segment. They are told of the
segment that they share and that they are released, but not of the one that is refused, nor of the
one that comes too late. -/
theorem sinks_are_told_once_of_two :
    ∃ ops : List (Trajectory.Operation Unit),
      ops = [.register (), .append ⟨1, [7], [[.origin]]⟩, .register (), .append ⟨2, [8], []⟩,
        .append ⟨2, [7], []⟩, .release, .append ⟨3, [7], [[.origin]]⟩, .clear] ∧
      callsTo (0, ()) (Trajectory.run {} (Trajectory.numbered ops)).2 =
        [.segment 1 [7] [[.origin]], .segment 2 [7] [], .released] ∧
      callsTo (2, ()) (Trajectory.run {} (Trajectory.numbered ops)).2 =
        [.segment 2 [7] [], .released] := by
  let after : List (Trajectory.Operation Unit) := [.append ⟨2, [8], []⟩, .append ⟨2, [7], []⟩,
    .release, .append ⟨3, [7], [[.origin]]⟩, .clear]
  obtain ⟨followed, -⟩ := sinks_are_told_once (σ := Unit)
  have h := followed ([.register (), .append ⟨1, [7], [[.origin]]⟩, .register ()] ++ after)
  exact ⟨_, rfl, (h.calls_eq [] () _ rfl).trans rfl,
    (h.calls_eq [.register (), .append ⟨1, [7], [[.origin]]⟩] () after rfl).trans rfl⟩

end Session

end Deposition
