import Deposition.Proofs.Session.Run
import Deposition.Proofs.Session.Turn

/-!
# What holds of every session

A session has flags that are kept apart and must agree: whether a job runs, whether a request is
armed or in flight, whether the job has failed or can be analysed. `Deposition.Session.Coherent`
says how they hang together. None of its parts can be shown alone – a request that is in flight
names a segment that was announced only because the download is looked at afresh after every
change, and a job that is done is not running only because it was running when it was done – so
they are kept together, by every turn (`Deposition.Session.Coherent.turn`), by every deed
(`Deposition.Session.Coherent.perform`) and by every run (`Deposition.Session.Coherent.run`).

The download is where the argument is. Between the arrival of a segment and the look at the
download that follows, a session is *not* coherent: the last segment of a complete job is there and
the job still runs. `Deposition.Session.Coherent.of_look` therefore asks for less than coherence
before the look.
-/

namespace Deposition

namespace Flow

@[simp] theorem next_announce (f : Flow) (a : Availability) : (f.announce a).next = f.next := rfl

@[simp] theorem waiting_announce (f : Flow) (a : Availability) :
    (f.announce a).waiting = f.waiting := rfl

/-- The latest segment never moves back. -/
theorem toNat_latest_announce (f : Flow) (a : Availability) :
    (f.announce a).latest.toNat = max f.latest.toNat a.latest.toNat := by
  simp only [announce, UInt32.lt_iff_toNat_lt]
  split <;> omega

theorem complete_announce (f : Flow) (a : Availability) :
    (f.announce a).complete = true ↔ f.complete = true ∨ a.latest = a.total := by
  simp [announce]

@[simp] theorem latest_received (f : Flow) : f.received.latest = f.latest := rfl

@[simp] theorem complete_received (f : Flow) : f.received.complete = f.complete := rfl

theorem toNat_next_received (f : Flow) :
    f.received.next.toNat = min (f.next.toNat + 1) maxWord := toNat_successor f.next

theorem expects_iff {f : Flow} {id : UInt32} :
    f.expects id = true ↔ f.waiting = true ∧ id = f.next := by
  simp [expects]

end Flow

namespace Session

variable {σ : Type}

/-- **The flags of a session agree.** -/
structure Coherent (s : Session σ) : Prop where
  /-- Segments are counted from 1. -/
  next_pos : 1 ≤ s.flow.next.toNat
  /-- At most one segment is asked for beyond what was announced. -/
  next_le : s.flow.next.toNat ≤ s.flow.latest.toNat + 1
  /-- What is in flight was announced. -/
  waiting_le : s.flow.waiting = true → s.flow.next ≤ s.flow.latest
  /-- A complete job that still runs has a segment left to fetch. -/
  complete_le : s.running = true → s.flow.complete = true → s.flow.next ≤ s.flow.latest
  /-- Only a running job asks for anything. -/
  running_of_armed : s.armed = true → s.running = true
  /-- A job that has failed is over and left nothing to analyse. -/
  of_failed : s.failed = true → s.running = false ∧ s.analysisReady = false
  /-- A job that is done is over, and what is analysed is its last frame. -/
  of_analysisReady : s.analysisReady = true →
    s.running = false ∧ s.analysis = s.trajectory.lastFrame?
  /-- Before that there is nothing to analyse. -/
  analysis_eq_none : s.analysisReady = false → s.analysis = none

namespace Coherent

variable {s s' : Session σ} {commands : List Command}

theorem failed_eq_false (h : s.Coherent) (hr : s.running = true) : s.failed = false := by
  by_contra hf
  exact absurd (h.of_failed (by simpa using hf)).1 (by simp [hr])

theorem analysisReady_eq_false (h : s.Coherent) (hr : s.running = true) :
    s.analysisReady = false := by
  by_contra ha
  exact absurd (h.of_analysisReady (by simpa using ha)).1 (by simp [hr])

theorem armed_eq_false (h : s.Coherent) (hr : s.running = false) : s.armed = false := by
  by_contra ha
  exact absurd (h.running_of_armed (by simpa using ha)) (by simp [hr])

/-- A session is coherent after a look at the download of its running job, even where it was not
before because the download had just moved. -/
theorem of_look (look : s.Look s' commands) (hr : s.running = true) (hf : s.failed = false)
    (ha : s.analysisReady = false) (hnone : s.analysis = none) (hpos : 1 ≤ s.flow.next.toNat)
    (hle : s.flow.next.toNat ≤ s.flow.latest.toNat + 1) : s'.Coherent := by
  cases look with
  | caughtUp h hc =>
    exact ⟨hpos, hle, by simp, by simp [hc], fun _ => hr, by simp [hf], by simp [ha],
      fun _ => hnone⟩
  | finished h hc =>
    exact ⟨hpos, hle, by simp, by simp [stopped], by simp [stopped], by simp [stopped, hf],
      fun _ => ⟨rfl, rfl⟩, by simp⟩
  | inFlight h hw =>
    exact ⟨hpos, hle, fun _ => h, fun _ _ => h, fun _ => hr, by simp [hf], by simp [ha],
      fun _ => hnone⟩
  | requested h hw =>
    exact ⟨hpos, hle, fun _ => h, fun _ _ => h, fun _ => hr, by simp [hf], by simp [ha],
      fun _ => hnone⟩

/-- A job that is stopped leaves the session coherent, whether or not it has failed. -/
theorem stop (h : s.Coherent) (hr : s.running = true) (failed : Bool) :
    Coherent { s.stopped with failed } := by
  have ha := h.analysisReady_eq_false hr
  exact ⟨h.next_pos, h.next_le, h.waiting_le, by simp [stopped], by simp [stopped],
    fun _ => ⟨rfl, ha⟩, by simp [stopped, ha], h.analysis_eq_none⟩

/-- **Every turn keeps a session coherent.** -/
theorem turn {e : Event} {notices : List (Notice σ)} (h : s.Coherent)
    (turn : s.Turn e s' commands notices) : s'.Coherent := by
  cases turn with
  | ignored _ => exact h
  | announced hr _ look =>
    refine of_look look hr (h.failed_eq_false hr) (h.analysisReady_eq_false hr)
      (h.analysis_eq_none (h.analysisReady_eq_false hr)) h.next_pos ?_
    have := h.next_le
    simp only [Flow.next_announce, Flow.toNat_latest_announce]
    omega
  | notReady hr _ _ =>
    exact ⟨h.next_pos, h.next_le, by simp, h.complete_le, h.running_of_armed, h.of_failed,
      h.of_analysisReady, h.analysis_eq_none⟩
  | cancelled hr _ => exact h.stop hr s.failed
  | failed hr _ => exact h.stop hr true
  | accepted hr _ he _ look =>
    -- the segment that arrives was announced, so the one after it is at most one beyond what was
    have hw := h.waiting_le (Flow.expects_iff.mp he).1
    rw [UInt32.le_iff_toNat_le] at hw
    have hlt := s.flow.latest.toNat_lt
    have hpos := h.next_pos
    refine of_look look hr (h.failed_eq_false hr) (h.analysisReady_eq_false hr)
      (h.analysis_eq_none (h.analysisReady_eq_false hr)) ?_ ?_
    · simp only [appending, Flow.toNat_next_received, maxWord]
      omega
    · simp only [appending, Flow.toNat_next_received, Flow.latest_received]
      omega
  | delayOver hr =>
    exact ⟨h.next_pos, h.next_le, h.waiting_le, h.complete_le, by simp, h.of_failed,
      h.of_analysisReady, h.analysis_eq_none⟩
  | askedAgain _ _ => exact h
  | lookedAgain hr _ look =>
    exact of_look look hr (h.failed_eq_false hr) (h.analysisReady_eq_false hr)
      (h.analysis_eq_none (h.analysisReady_eq_false hr)) h.next_pos h.next_le

theorem noted (h : s.Coherent) (e : Event) : (s.noted e).Coherent := by
  cases e <;> exact ⟨h.next_pos, h.next_le, h.waiting_le, h.complete_le, h.running_of_armed,
    h.of_failed, h.of_analysisReady, h.analysis_eq_none⟩

theorem handle (h : s.Coherent) (e : Event) : (s.handle e).1.Coherent :=
  (h.noted e).turn (turn_handle s e)

/-- A session with nothing downloaded is coherent, whether or not its job runs. -/
theorem of_fresh (timing : Timing) (connected pending running : Bool) :
    Coherent ({ timing, connected, pending, running } : Session σ) :=
  ⟨Nat.le_refl 1, Nat.le_refl 1, by simp, by simp, by simp, by simp, by simp, fun _ => rfl⟩

/-- A submission starts over, and what it starts is coherent. -/
theorem of_submit {c : Configuration} {effects : Effects σ} (h : s.submit c = .ok (s', effects)) :
    s'.Coherent := by
  obtain ⟨rfl, -⟩ := submit_eq_ok h
  exact of_fresh _ _ _ _

/-- Sinks that come and go leave a session as coherent as it was. -/
theorem withSinks (h : s.Coherent) (sinks : List σ) :
    Coherent { s with trajectory := { s.trajectory with sinks } } :=
  ⟨h.next_pos, h.next_le, h.waiting_le, h.complete_le, h.running_of_armed, h.of_failed,
    h.of_analysisReady, h.analysis_eq_none⟩

/-- **Every answer keeps a session coherent.** -/
theorem answer {deed : Deed σ} {notices : List (Notice σ)} (h : s.Coherent)
    (answer : s.Answer deed s' commands notices) : s'.Coherent := by
  cases answer with
  | notSubmitted _ => exact h
  | submitted _ => exact of_fresh _ _ _ _
  | notCancelled _ => exact h
  | cancelled hr =>
    -- the request that is now pending is no part of coherence
    have hstop := h.stop hr s.failed
    exact ⟨hstop.next_pos, hstop.next_le, hstop.waiting_le, hstop.complete_le,
      hstop.running_of_armed, hstop.of_failed, hstop.of_analysisReady, hstop.analysis_eq_none⟩
  | handled e => exact h.handle e
  | registered _ => exact h.withSinks _
  | released => exact h.withSinks _

/-- **Every deed keeps a session coherent.** -/
theorem perform (h : s.Coherent) (deed : Deed σ) : (s.perform deed).1.Coherent :=
  h.answer (answer_perform s deed)

end Coherent

/-- **The flags agree after any run** of a session in which they agreed. -/
theorem Coherent.run {s : Session σ} (h : s.Coherent) (deeds : List (Deed σ)) :
    (s.run deeds).1.Coherent :=
  run_induction (P := fun t _ => t.Coherent) rfl h fun deed _ _ _ ht => ht.perform deed

/-- **The flags of a session agree**, whatever has been done to it since it was new: jobs submitted
and cancelled, events of any contents, sinks registered and released, in any order. -/
theorem flags_agree (timing : Timing) (deeds : List (Deed σ)) :
    (run { timing } deeds).1.Coherent :=
  (Coherent.of_fresh timing false false false).run deeds

end Session

end Deposition
