import Deposition.Session.Basic
import Mathlib.Data.List.Induction

/-!
# Runs of a session

What is true of a session is true after any sequence of things done to it: submissions,
cancellations, events, sinks that come and go. Such a thing is a `Deposition.Deed`, and
`Deposition.Session.run` does several of them in order and keeps all that they bring about. A deed
that is refused does nothing, so every list of deeds is a run and there is no run that gets stuck.

What a deed does is one of seven things, listed in `Deposition.Session.Answer`; a property of
sessions is shown to be kept by one case for each (`Deposition.Session.answer_perform`).

All inductions over runs are one induction, `Deposition.Session.run_induction`: what holds of a
session with nothing yet brought about, and is kept by each deed, holds at the end. Its predicate
sees the session *and* everything brought about so far, so that statements which count commands, or
compare what the sinks were told with the frames, are proved in the same way as invariants of the
session alone. Where a statement is also about what was done, `Deposition.Session.deeds_induction`
shows it the deeds, and `Deposition.Session.tally` counts those of a kind; the kind may depend on
the session that a deed is done to, since the same message may be of use to one session and of none
to another.
-/

namespace Deposition

/-- What can be done to a session. -/
inductive Deed (σ : Type)
  /-- A job is submitted. -/
  | submit (configuration : Configuration)
  /-- The running job is cancelled. -/
  | cancel
  /-- An event is handled. -/
  | event (event : Event)
  /-- A sink is registered. -/
  | register (sink : σ)
  /-- The sinks are released. -/
  | release

namespace Effects

variable {σ : Type}

@[simp] theorem commands_followedBy (a b : Effects σ) :
    (a.followedBy b).commands = a.commands ++ b.commands := rfl

@[simp] theorem notices_followedBy (a b : Effects σ) :
    (a.followedBy b).notices = a.notices ++ b.notices := rfl

@[simp] theorem followedBy_empty (a : Effects σ) : a.followedBy {} = a := by
  simp [followedBy]

@[simp] theorem empty_followedBy (a : Effects σ) : Effects.followedBy {} a = a := by
  simp [followedBy]

theorem followedBy_assoc (a b c : Effects σ) :
    (a.followedBy b).followedBy c = a.followedBy (b.followedBy c) := by
  simp [followedBy]

end Effects

namespace Session

variable {σ : Type}

/-- One thing done to a session. What is refused changes nothing. -/
def perform (s : Session σ) : Deed σ → Session σ × Effects σ
  | .submit configuration =>
    match s.submit configuration with
    | .ok step => step
    | .error _ => (s, {})
  | .cancel =>
    match s.cancel with
    | .ok step => step
    | .error _ => (s, {})
  | .event event => s.handle event
  | .register sink => (s.registerSink sink, {})
  | .release => s.releaseSinks

section Perform

variable {s : Session σ} {c : Configuration} {rejection : Rejection} {step : Session σ × Effects σ}

theorem perform_submit_ok (h : s.submit c = .ok step) : s.perform (.submit c) = step := by
  simp [perform, h]

theorem perform_submit_error (h : s.submit c = .error rejection) :
    s.perform (.submit c) = (s, {}) := by
  simp [perform, h]

theorem perform_cancel_ok (h : s.cancel = .ok step) : s.perform .cancel = step := by
  simp [perform, h]

theorem perform_cancel_error (h : s.cancel = .error rejection) :
    s.perform .cancel = (s, {}) := by
  simp [perform, h]

end Perform

/-- The session that starts a job. -/
def started (s : Session σ) : Session σ :=
  { timing := s.timing, connected := s.connected, running := true, pending := true }

/-- **A submission that is accepted** starts a job afresh, stops the timers, sends one message and
releases the sinks; nothing of the session before it is left but the connection. -/
theorem submit_eq_ok {s s' : Session σ} {c : Configuration} {effects : Effects σ}
    (h : s.submit c = .ok (s', effects)) :
    s' = s.started ∧ effects.commands = cancelTimers ++ [.send (.submit c.submissionText)] ∧
      effects.notices = s.trajectory.sinks.map fun sink => ⟨sink, .released⟩ := by
  unfold submit at h
  split at h
  · cases h
  · cases h
    exact ⟨rfl, rfl, rfl⟩

/-- **A cancellation that is accepted** stops a running job. -/
theorem cancel_eq_ok {s s' : Session σ} {effects : Effects σ}
    (h : s.cancel = .ok (s', effects)) :
    s.running = true ∧ s' = { s.stopped with pending := true } ∧
      effects.commands = cancelTimers ++ [.send .cancel] ∧ effects.notices = [] := by
  unfold cancel at h
  split at h
  · cases h
  · split at h
    · cases h
    · next hr =>
      cases h
      exact ⟨by simpa using hr, rfl, rfl, rfl⟩

/-- **The answers of a session** to what is done to it: the session afterwards, what has to be done,
and what the sinks are told. -/
inductive Answer (s : Session σ) : Deed σ → Session σ → List Command → List (Notice σ) → Prop
  /-- The submission is refused. -/
  | notSubmitted {c : Configuration} {rejection : Rejection} (h : s.submit c = .error rejection) :
      Answer s (.submit c) s [] []
  /-- A job starts, and the sinks of the one before it are released. -/
  | submitted {c : Configuration} {step : Session σ × Effects σ} (h : s.submit c = .ok step) :
      Answer s (.submit c) s.started (cancelTimers ++ [.send (.submit c.submissionText)])
        (s.trajectory.sinks.map fun sink => ⟨sink, .released⟩)
  /-- The cancellation is refused. -/
  | notCancelled {rejection : Rejection} (h : s.cancel = .error rejection) :
      Answer s .cancel s [] []
  /-- The running job is over. -/
  | cancelled (hr : s.running = true) :
      Answer s .cancel { s.stopped with pending := true } (cancelTimers ++ [.send .cancel]) []
  /-- The event is handled. -/
  | handled (e : Event) :
      Answer s (.event e) (s.handle e).1 (s.handle e).2.commands (s.handle e).2.notices
  /-- The sink is registered. -/
  | registered (sink : σ) : Answer s (.register sink) (s.registerSink sink) [] []
  /-- The sinks are released. -/
  | released : Answer s .release { s with trajectory := { s.trajectory with sinks := [] } } []
      (s.trajectory.sinks.map fun sink => ⟨sink, .released⟩)

/-- **An answer is all that a deed brings about.** -/
theorem answer_perform (s : Session σ) (deed : Deed σ) :
    s.Answer deed (s.perform deed).1 (s.perform deed).2.commands (s.perform deed).2.notices := by
  cases deed with
  | submit c =>
    cases h : s.submit c with
    | error _ =>
      rw [perform_submit_error h]
      exact .notSubmitted h
    | ok step =>
      obtain ⟨s', effects⟩ := step
      obtain ⟨rfl, hcommands, hnotices⟩ := submit_eq_ok h
      rw [perform_submit_ok h, hcommands, hnotices]
      exact .submitted h
  | cancel =>
    cases h : s.cancel with
    | error _ =>
      rw [perform_cancel_error h]
      exact .notCancelled h
    | ok step =>
      obtain ⟨s', effects⟩ := step
      obtain ⟨hr, rfl, hcommands, hnotices⟩ := cancel_eq_ok h
      rw [perform_cancel_ok h, hcommands, hnotices]
      exact .cancelled hr
  | event e => exact .handled e
  | register sink => exact .registered sink
  | release => exact .released

/-- Several things done to a session, and everything that they bring about. -/
def run (s : Session σ) : List (Deed σ) → Session σ × Effects σ
  | [] => (s, {})
  | deed :: deeds =>
    let (t, effects) := s.perform deed
    let (u, more) := t.run deeds
    (u, effects.followedBy more)

@[simp] theorem run_nil (s : Session σ) : s.run [] = (s, {}) := rfl

theorem run_cons (s : Session σ) (deed : Deed σ) (deeds : List (Deed σ)) :
    s.run (deed :: deeds) = (((s.perform deed).1.run deeds).1,
      (s.perform deed).2.followedBy ((s.perform deed).1.run deeds).2) := rfl

/-- **A run in two parts** is the second run after the first. -/
theorem run_append (s : Session σ) (ds es : List (Deed σ)) :
    s.run (ds ++ es) = (((s.run ds).1.run es).1,
      (s.run ds).2.followedBy ((s.run ds).1.run es).2) := by
  induction ds generalizing s with
  | nil => simp
  | cons d ds ih => simp [run_cons, ih, Effects.followedBy_assoc]

/-- **A run and one deed more.** -/
theorem run_concat (s : Session σ) (deeds : List (Deed σ)) (deed : Deed σ) :
    s.run (deeds ++ [deed]) = (((s.run deeds).1.perform deed).1,
      (s.run deeds).2.followedBy ((s.run deeds).1.perform deed).2) := by
  simp [run_append, run_cons]

/-- **The induction over what is done**: what holds before anything is done, and is kept by every
deed of those allowed, holds of the deeds, of the session at the end and of all that was brought
about on the way. -/
theorem deeds_induction {P : List (Deed σ) → Session σ → Effects σ → Prop} {s : Session σ}
    (deeds : List (Deed σ)) (start : P [] s {})
    (step : ∀ ds, ∀ d ∈ deeds, P ds (s.run ds).1 (s.run ds).2 →
      P (ds ++ [d]) ((s.run ds).1.perform d).1
        ((s.run ds).2.followedBy ((s.run ds).1.perform d).2)) :
    P deeds (s.run deeds).1 (s.run deeds).2 := by
  induction deeds using List.reverseRecOn with
  | nil => exact start
  | append_singleton ds d ih =>
    rw [run_concat]
    exact step ds d (by simp) (ih fun ds' d' hd' => step ds' d' (by simp [hd']))

/-- **The induction over runs**: what holds before anything is done, and is kept by every deed of
those allowed, holds of the session at the end and of all that was brought about on the way. -/
theorem run_induction {P : Session σ → Effects σ → Prop} {s t : Session σ} {brought : Effects σ}
    {deeds : List (Deed σ)} (hrun : s.run deeds = (t, brought)) (start : P s {})
    (step : ∀ deed ∈ deeds, ∀ u effects, P u effects →
      P (u.perform deed).1 (effects.followedBy (u.perform deed).2)) :
    P t brought := by
  have hP := deeds_induction (P := fun _ u effects => P u effects) deeds start
    fun _ d hd h => step d hd _ _ h
  rwa [hrun] at hP

/-! ### Counting what is done -/

/-- How many of the things done in a run are of a kind. -/
def tally (kind : Session σ → Deed σ → Bool) (s : Session σ) : List (Deed σ) → Nat
  | [] => 0
  | deed :: deeds => (kind s deed).toNat + tally kind (s.perform deed).1 deeds

@[simp] theorem tally_nil (kind : Session σ → Deed σ → Bool) (s : Session σ) :
    s.tally kind [] = 0 := rfl

theorem tally_cons (kind : Session σ → Deed σ → Bool) (s : Session σ) (deed : Deed σ)
    (deeds : List (Deed σ)) :
    s.tally kind (deed :: deeds) = (kind s deed).toNat + (s.perform deed).1.tally kind deeds := rfl

/-- **A run in two parts** is counted in two parts, the second by the sessions of the second run. -/
theorem tally_append (kind : Session σ → Deed σ → Bool) (s : Session σ) (ds es : List (Deed σ)) :
    s.tally kind (ds ++ es) = s.tally kind ds + (s.run ds).1.tally kind es := by
  induction ds generalizing s with
  | nil => simp
  | cons d ds ih => simp [tally_cons, run_cons, ih, Nat.add_assoc]

/-- The deed that is done last is counted by the session that it is done to. -/
theorem tally_concat (kind : Session σ → Deed σ → Bool) (s : Session σ) (deeds : List (Deed σ))
    (deed : Deed σ) :
    s.tally kind (deeds ++ [deed]) = s.tally kind deeds + (kind (s.run deeds).1 deed).toNat := by
  simp [tally_append, tally_cons]

end Session

end Deposition
