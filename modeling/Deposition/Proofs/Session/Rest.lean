import Deposition.Proofs.Session.Run
import Deposition.Proofs.Session.Turn

/-!
# A job that is over

A job ends in one of four ways – it is done, it has failed, the server or the user has cancelled
it – and a session may not have had one yet. From then on nothing happens to the session until the
next job: late segments and announcements, answers that something is not there, timers that run out
nevertheless, connections that come and go. What the session has kept of the job, the frames above
all, is what it still has when somebody looks (`Deposition.Session.stays_at_rest`).

A session without a job may still change in three things, none of which belongs to the job: whether
there is a connection, whether a request is pending, and who follows the trajectory.
`Deposition.Session.Keeps` says that it has changed in nothing else.
-/

namespace Deposition

namespace Session

variable {σ : Type} {s t u : Session σ}

/-- **A session has kept what it had**, but for the connection, the request that may be pending, and
the sinks. -/
def Keeps (s t : Session σ) : Prop :=
  ∃ connected pending sinks,
    t = { s with connected, pending, trajectory := { s.trajectory with sinks } }

theorem Keeps.refl (s : Session σ) : s.Keeps s := ⟨_, _, _, rfl⟩

theorem Keeps.trans (h : s.Keeps t) (h' : t.Keeps u) : s.Keeps u := by
  obtain ⟨_, _, _, rfl⟩ := h
  obtain ⟨connected, pending, sinks, rfl⟩ := h'
  exact ⟨connected, pending, sinks, rfl⟩

theorem Keeps.running_eq (h : s.Keeps t) : t.running = s.running := by
  obtain ⟨_, _, _, rfl⟩ := h
  rfl

/-- What an event does to every session is none of the job's business. -/
theorem keeps_noted (s : Session σ) (e : Event) : s.Keeps (s.noted e) := by
  cases e <;> exact ⟨_, _, _, rfl⟩

/-- **One deed** leaves a session without a job as it is, and makes it do nothing; all that a sink
can hear is that it is released. -/
theorem Answer.of_resting {deed : Deed σ} {commands : List Command} {notices : List (Notice σ)}
    (answer : s.Answer deed t commands notices) (hr : s.running = false)
    (hrefused : ∀ c, deed = .submit c → ∃ rejection, s.submit c = .error rejection) :
    s.Keeps t ∧ commands = [] ∧ ∀ notice ∈ notices, notice.call = .released := by
  cases answer with
  | notSubmitted _ | notCancelled _ => exact ⟨.refl s, rfl, by simp⟩
  | submitted h =>
    obtain ⟨rejection, hrejection⟩ := hrefused _ rfl
    simp [h] at hrejection
  | cancelled hrunning => simp [hr] at hrunning
  | handled e =>
    obtain ⟨ht, hcommands, hnotices⟩ := (turn_handle s e).of_resting (by simpa using hr)
    rw [ht]
    exact ⟨keeps_noted s e, hcommands, by simp [hnotices]⟩
  | registered sink => exact ⟨⟨_, _, _, rfl⟩, rfl, by simp⟩
  | released => exact ⟨⟨_, _, _, rfl⟩, rfl, by simp⟩

/-- Without a job there is nothing to cancel. -/
theorem cancel_of_resting (hr : s.running = false) : ∃ rejection, s.cancel = .error rejection := by
  unfold cancel
  cases s.connected with
  | false => exact ⟨.disconnected, rfl⟩
  | true => exact ⟨.notRunning, by simp [hr]⟩

/-- **No submission is accepted** among the things done to a session. -/
def Refuses : Session σ → List (Deed σ) → Prop
  | _, [] => True
  | s, deed :: deeds =>
    (∀ c, deed = .submit c → ∃ rejection, s.submit c = .error rejection) ∧
      Refuses (s.perform deed).1 deeds

/-- A session that refuses submissions does so in both parts of a run. -/
theorem refuses_append (s : Session σ) (ds es : List (Deed σ)) :
    s.Refuses (ds ++ es) ↔ s.Refuses ds ∧ (s.run ds).1.Refuses es := by
  induction ds generalizing s with
  | nil => simp [Refuses]
  | cons d ds ih => simp [Refuses, run_cons, ih, and_assoc]

/-- Without a job, a run of refused submissions changes nothing that is kept. -/
theorem keeps_run {deeds : List (Deed σ)} (hr : s.running = false) (hrefused : s.Refuses deeds) :
    s.Keeps (s.run deeds).1 := by
  induction deeds generalizing s with
  | nil => exact .refl s
  | cons deed deeds ih =>
    obtain ⟨keeps, -⟩ := (answer_perform s deed).of_resting hr hrefused.1
    exact keeps.trans (ih (keeps.running_eq.trans hr) hrefused.2)

/-- **A job that is over stays over**, and the session keeps what it had of it. Take a session in
which no job is running, however that has come about, and anything that is done to it, as long as no
submission is accepted: nothing has to be done about it, there is nothing to cancel at the end, and
the session has changed in nothing but the connection, the pending request and the sinks, who have
heard of no segment. -/
theorem stays_at_rest {deeds : List (Deed σ)} (hr : s.running = false)
    (hrefused : s.Refuses deeds) :
    s.Keeps (s.run deeds).1 ∧ (s.run deeds).2.commands = [] ∧
      (∃ rejection, (s.run deeds).1.cancel = .error rejection) ∧
      ∀ notice ∈ (s.run deeds).2.notices, notice.call = .released := by
  induction deeds generalizing s with
  | nil => exact ⟨.refl s, rfl, cancel_of_resting hr, by simp⟩
  | cons deed deeds ih =>
    obtain ⟨keeps, hcommands, hnotices⟩ := (answer_perform s deed).of_resting hr hrefused.1
    obtain ⟨keeps', hcommands', hcancel, hnotices'⟩ :=
      ih (keeps.running_eq.trans hr) hrefused.2
    rw [run_cons]
    refine ⟨keeps.trans keeps', by simp [hcommands, hcommands'], hcancel, fun notice hmem => ?_⟩
    rcases List.mem_append.mp hmem with hmem | hmem
    · exact hnotices notice hmem
    · exact hnotices' notice hmem

/-- A job that has failed after its first segment. The second one still arrives, more is announced,
both timers run out, and somebody tries to cancel and, without a connection, to submit; the first
frame is still there, and so is the failure. -/
theorem stays_at_rest_of_failed :
    ∃ (history deeds : List (Deed Unit)) (s : Session Unit) (told : Effects Unit)
      (second : Bytes) (text : String) (c : Configuration),
      run {} history = (s, told) ∧ s.failed = true ∧ s.flow.next = 2 ∧
      s.trajectory.frames = [[.origin]] ∧
      Segment.decode second = .ok ⟨2, [7], [[.origin]]⟩ ∧
      ServerMessage.parse text = .ok (.newFrames ⟨2, 3⟩) ∧
      deeds = [.event (.binary second), .event (.text text), .event (.timer .debounce), .release,
        .event (.timer .retry), .cancel, .event .disconnected, .submit c] ∧
      (s.run deeds).1.trajectory.frames = [[.origin]] ∧ (s.run deeds).1.failed = true ∧
      (s.run deeds).1.flow = s.flow ∧ (s.run deeds).2.commands = [] ∧
      ∃ rejection, (s.run deeds).1.cancel = .error rejection := by
  obtain ⟨first, hfirst⟩ : ∃ buffer, Segment.decode buffer = .ok ⟨1, [7], [[.origin]]⟩ :=
    ⟨Segment.encode 1 [7] [[.origin]], rfl⟩
  obtain ⟨second, hsecond⟩ : ∃ buffer, Segment.decode buffer = .ok ⟨2, [7], [[.origin]]⟩ :=
    ⟨Segment.encode 2 [7] [[.origin]], rfl⟩
  obtain ⟨text, hp⟩ : ∃ text, ServerMessage.parse text = .ok (.newFrames ⟨2, 3⟩) :=
    ⟨"new_frames\x7b\"l\":2,\"f\":3\x7d", by cbv⟩
  obtain ⟨bad, hbad⟩ : ∃ text, ServerMessage.parse text = .ok .failed := ⟨"failed", rfl⟩
  let c : Configuration := ⟨[⟨"ETH", 1⟩], []⟩
  let history : List (Deed Unit) := [.event .connected, .submit c, .register (),
    .event (.text text), .event (.binary first), .event (.text bad)]
  let deeds : List (Deed Unit) := [.event (.binary second), .event (.text text),
    .event (.timer .debounce), .release, .event (.timer .retry), .cancel, .event .disconnected,
    .submit c]
  obtain ⟨s, told, hrun, hrunning, hfailed, hnext, hframes⟩ : ∃ s told,
      run {} history = (s, told) ∧ s.running = false ∧ s.failed = true ∧ s.flow.next = 2 ∧
      s.trajectory.frames = [[.origin]] := by
    refine ⟨(run {} history).1, (run {} history).2, rfl, ?_⟩
    simp only [history, run_cons, Session.perform, Session.handle, onText, onBinary, hp, hfirst,
      hbad]
    exact ⟨rfl, rfl, rfl, rfl⟩
  -- the only submission is the last deed, and it is refused for want of a connection
  have hrefused : s.Refuses deeds := by
    simp [deeds, Refuses, Session.perform, Session.handle, onDisconnected, submit,
      submitRejection?]
  obtain ⟨⟨connected, pending, sinks, hkept⟩, hcommands, hcancel, -⟩ :=
    stays_at_rest hrunning hrefused
  refine ⟨history, deeds, s, told, second, text, c, hrun, hfailed, hnext, hframes, hsecond, hp, rfl,
    ?_, ?_, ?_, hcommands, hcancel⟩
  · rw [hkept]
    exact hframes
  · rw [hkept]
    exact hfailed
  · rw [hkept]

end Session

end Deposition
