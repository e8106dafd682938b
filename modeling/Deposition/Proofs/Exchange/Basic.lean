import Deposition.Job.Basic
import Deposition.Proofs.Session.Run
import Deposition.Proofs.Session.Turn
import Mathlib.Logic.Relation

/-!
# A session and a server

A session and a server talk over one connection that stays up, through two channels that keep the
order. A state of the two is a `Deposition.Exchange`, and `Deposition.Exchange.Step` lists what can
happen: the user and the clock do something to the session, the server takes the next message that
was sent to it, the server says something about a job, and the next message of the server is
delivered.

The server is any server that keeps three promises. It takes the messages of the client in their
order; it answers each cancellation with one acknowledgement, after which it says nothing about that
job; and it says nothing about a job that it has not received. What it says otherwise, and when, is
free.

Everything the server has sent is kept, with the number of messages that have been delivered, so
that the order in which two messages were sent can still be told when both are gone from the
channel.

## What is owed

A cancellation that the session was allowed is either acknowledged or still on its way to the server
(`Deposition.Exchange.Owed`). Which job it will be acknowledged for is told by counting the
submissions in front of it, and this is why `Deposition.Exchange.Sound` is proved first.
-/

namespace Deposition

/-- A message of a server. -/
inductive Parcel
  /-- It is about a job; the jobs are counted from 1. -/
  | about (job : Nat) (event : Event)
  /-- It acknowledges that a job is cancelled. -/
  | acknowledgement (job : Nat)
deriving DecidableEq

/-- The event of a session to which a message leads. -/
def Parcel.event : Parcel → Event
  | .about _ event => event
  | .acknowledgement _ => .text "cancel"

/-- Whether an event is a message that arrives. -/
def Event.isMessage : Event → Bool
  | .text _ | .binary _ => true
  | .connected | .disconnected | .timer _ => false

/-- The number of submissions among messages to a server. -/
def submissions (messages : List ClientMessage) : Nat :=
  messages.countP fun message => match message with
    | .submit _ => true
    | .cancel | .request _ => false

@[simp] theorem submissions_append (ms ns : List ClientMessage) :
    submissions (ms ++ ns) = submissions ms + submissions ns := by
  simp [submissions]

/-- **A session and a server**, with the messages between them. -/
structure Exchange (σ : Type) where
  /-- The session. -/
  session : Session σ
  /-- How many jobs the session has submitted; the last one is its current job. -/
  jobs : Nat := 0
  /-- The jobs that the session has cancelled. -/
  cancelled : List Nat := []
  /-- The messages that are on their way to the server. -/
  toServer : List ClientMessage := []
  /-- How many jobs the server has received. -/
  received : Nat := 0
  /-- Everything that the server has sent. -/
  sent : List Parcel := []
  /-- How many messages of the server have been delivered. -/
  heard : Nat := 0

namespace Exchange

variable {σ : Type} {x y z : Exchange σ}

/-- Before anything has happened, on a connection that is up. -/
def start (timing : Timing) : Exchange σ := { session := { timing, connected := true } }

/-- A step of the session, whose messages go on their way. -/
def does (x : Exchange σ) (step : Session σ × Effects σ) : Exchange σ :=
  { x with
    session := step.1
    toServer := x.toServer ++ step.2.commands.filterMap Job.sent? }

/-- A submission that the session has accepted. -/
def submits (x : Exchange σ) (step : Session σ × Effects σ) : Exchange σ :=
  { x.does step with jobs := x.jobs + 1 }

/-- A cancellation that the session has accepted. -/
def cancels (x : Exchange σ) (step : Session σ × Effects σ) : Exchange σ :=
  { x.does step with cancelled := x.jobs :: x.cancelled }

/-- The server takes a message, and the others stay on their way. A cancellation it acknowledges;
what it has to say about a request it says when it likes. -/
def serves (x : Exchange σ) (others : List ClientMessage) : ClientMessage → Exchange σ
  | .submit _ => { x with toServer := others, received := x.received + 1 }
  | .cancel => { x with toServer := others, sent := x.sent ++ [.acknowledgement x.received] }
  | .request _ => { x with toServer := others }

/-- The next message of the server is delivered. -/
def delivers (x : Exchange σ) (parcel : Parcel) : Exchange σ :=
  { x.does (x.session.handle parcel.event) with heard := x.heard + 1 }

/-- **What can happen** between a session and a server that keeps its promises. -/
inductive Step (x : Exchange σ) : Exchange σ → Prop
  /-- A job is submitted. -/
  | submit {c : Configuration} {step : Session σ × Effects σ} (h : x.session.submit c = .ok step) :
      Step x (x.submits step)
  /-- The current job is cancelled. -/
  | cancel {step : Session σ × Effects σ} (h : x.session.cancel = .ok step) :
      Step x (x.cancels step)
  /-- A timer runs out. -/
  | timer (timer : Timer) : Step x (x.does (x.session.handle (.timer timer)))
  /-- A sink is registered. -/
  | register (sink : σ) : Step x (x.does (x.session.registerSink sink, {}))
  /-- The sinks are released. -/
  | release : Step x (x.does x.session.releaseSinks)
  /-- The server takes the first message that is on its way. -/
  | serve {message : ClientMessage} {others : List ClientMessage}
      (h : x.toServer = message :: others) : Step x (x.serves others message)
  /-- The server says something about a job that it has received and not acknowledged to be
  cancelled. -/
  | say {job : Nat} {event : Event} (hpos : 1 ≤ job) (hle : job ≤ x.received)
      (hnot : .acknowledgement job ∉ x.sent) (hmessage : event.isMessage = true) :
      Step x { x with sent := x.sent ++ [.about job event] }
  /-- The first message that has not been delivered is delivered. -/
  | deliver {parcel : Parcel} (h : x.sent[x.heard]? = some parcel) : Step x (x.delivers parcel)

/-- Any number of steps. -/
abbrev Steps : Exchange σ → Exchange σ → Prop := Relation.ReflTransGen Step

/-- What a submission makes of the two: a new current job, and a message. -/
theorem submits_eq {c : Configuration} {step : Session σ × Effects σ}
    (h : x.session.submit c = .ok step) :
    x.submits step = { x with
      session := x.session.started
      jobs := x.jobs + 1
      toServer := x.toServer ++ [.submit c.submissionText] } := by
  obtain ⟨s', effects⟩ := step
  obtain ⟨rfl, hcommands, -⟩ := Session.submit_eq_ok h
  simp only [submits, does, hcommands]
  rfl

theorem Step.submit_eq {c : Configuration} {step : Session σ × Effects σ}
    (h : x.session.submit c = .ok step) :
    Step x { x with
      session := x.session.started
      jobs := x.jobs + 1
      toServer := x.toServer ++ [.submit c.submissionText] } :=
  submits_eq h ▸ .submit h

/-- What a cancellation makes of the two: a job that is over, and a message. -/
theorem cancels_eq {step : Session σ × Effects σ} (h : x.session.cancel = .ok step) :
    x.cancels step = { x with
      session := { x.session.stopped with pending := true }
      cancelled := x.jobs :: x.cancelled
      toServer := x.toServer ++ [.cancel] } := by
  obtain ⟨s', effects⟩ := step
  obtain ⟨-, rfl, hcommands, -⟩ := Session.cancel_eq_ok h
  simp only [cancels, does, hcommands]
  rfl

/-! ### What only grows -/

/-- **What was heard stays heard**: nothing that the server has sent, and nothing that was
delivered, is ever taken back. -/
theorem Step.grows (h : Step x y) : x.sent <+: y.sent ∧ x.heard ≤ y.heard := by
  cases h with
  | submit _ | cancel _ | timer _ | register _ | release => exact ⟨List.prefix_rfl, Nat.le_refl _⟩
  | @serve message others _ =>
    cases message with
    | cancel => exact ⟨List.prefix_append _ _, Nat.le_refl _⟩
    | submit _ | request _ => exact ⟨List.prefix_rfl, Nat.le_refl _⟩
  | say _ _ _ _ => exact ⟨List.prefix_append _ _, Nat.le_refl _⟩
  | deliver _ => exact ⟨List.prefix_rfl, Nat.le_succ _⟩

theorem Steps.grows (h : Steps x y) : x.sent <+: y.sent ∧ x.heard ≤ y.heard := by
  induction h with
  | refl => exact ⟨List.prefix_rfl, Nat.le_refl _⟩
  | tail _ step ih => exact ⟨ih.1.trans step.grows.1, Nat.le_trans ih.2 step.grows.2⟩

/-- The messages delivered so far. -/
def delivered (x : Exchange σ) : List Parcel := x.sent.take x.heard

theorem Steps.delivered_prefix (h : Steps x y) : x.delivered <+: y.delivered := by
  obtain ⟨hsent, hheard⟩ := h.grows
  refine List.prefix_take_iff.mpr ⟨(List.take_prefix _ _).trans hsent, ?_⟩
  exact Nat.le_trans (List.length_take_le _ _) hheard

/-! ### What is owed -/

/-- **A cancellation is owed an acknowledgement**: it has been acknowledged, or it is on its way to
the server behind the submission of its job and before the next one. -/
def Owed (x : Exchange σ) (job : Nat) : Prop :=
  .acknowledgement job ∈ x.sent ∨ ∃ before behind,
    x.toServer = before ++ .cancel :: behind ∧ x.received + submissions before = job

/-- **The two sides agree on what there is**. -/
structure Sound (x : Exchange σ) : Prop where
  /-- Only what was sent is delivered. -/
  heard_le : x.heard ≤ x.sent.length
  /-- A job that was submitted has been received or is on its way. -/
  counted : x.jobs = x.received + submissions x.toServer
  /-- Every cancellation is owed an acknowledgement. -/
  owed : ∀ job ∈ x.cancelled, x.Owed job

/-- Messages that join the others on their way change nothing for those. -/
theorem Owed.does {job : Nat} (h : x.Owed job) (step : Session σ × Effects σ) :
    (x.does step).Owed job := by
  rcases h with h | ⟨before, behind, hto, hjob⟩
  · exact .inl h
  · exact .inr ⟨before, behind ++ step.2.commands.filterMap Job.sent?,
      by simp [Exchange.does, hto], hjob⟩

/-- The server comes one message closer to a cancellation, or acknowledges it. -/
theorem Owed.serves {job : Nat} (h : x.Owed job) {message : ClientMessage}
    {others : List ClientMessage} (hto : x.toServer = message :: others) :
    (x.serves others message).Owed job := by
  rcases h with h | ⟨before, behind, hto', hjob⟩
  · left
    cases message <;> simp [Exchange.serves, h]
  · -- the message that is taken is the cancellation, or the first of those in front of it
    rw [hto] at hto'
    cases before with
    | nil =>
      obtain ⟨rfl, rfl⟩ : message = .cancel ∧ others = behind := by simpa using hto'
      obtain rfl : x.received = job := by simpa [submissions] using hjob
      exact .inl (by simp [Exchange.serves])
    | cons first before =>
      obtain ⟨rfl, rfl⟩ : message = first ∧ others = before ++ .cancel :: behind := by
        simpa using hto'
      right
      refine ⟨before, behind, ?_, ?_⟩
      · cases message <;> rfl
      · cases message <;> simp [Exchange.serves, submissions] at hjob ⊢ <;> omega

/-- What has been sent stays sent. -/
theorem Owed.of_sent {job : Nat} (h : x.Owed job) (hsent : x.sent <+: y.sent)
    (hto : y.toServer = x.toServer) (hreceived : y.received = x.received) : y.Owed job := by
  rcases h with h | ⟨before, behind, hto', hjob⟩
  · exact .inl (hsent.subset h)
  · exact .inr ⟨before, behind, hto.trans hto', hreceived ▸ hjob⟩

/-- A step of the session that submits nothing. -/
theorem Sound.does (h : x.Sound) {step : Session σ × Effects σ}
    (hsub : submissions (step.2.commands.filterMap Job.sent?) = 0) : (x.does step).Sound :=
  ⟨h.heard_le, by simpa [Exchange.does, hsub] using h.counted,
    fun job hjob => (h.owed job hjob).does step⟩

/-- What the session sends because of an event is no submission. -/
theorem submissions_handle (s : Session σ) (e : Event) :
    submissions ((s.handle e).2.commands.filterMap Job.sent?) = 0 := by
  rw [submissions, List.countP_eq_zero]
  intro message hmessage
  obtain ⟨command, hcommand, hsent⟩ := List.mem_filterMap.mp hmessage
  obtain rfl : command = .send message := by
    cases command <;> simp_all [Job.sent?]
  rw [(Session.turn_handle s e).eq_request hcommand]
  simp

theorem Sound.step (h : x.Sound) (step : Step x y) : y.Sound := by
  cases step with
  | @submit c step hs =>
    have hcounted := h.counted
    refine ⟨h.heard_le, ?_, fun job hjob => (h.owed job hjob).does step⟩
    rw [submits_eq hs]
    simp [submissions] at hcounted ⊢
    omega
  | @cancel step hs =>
    have howed (job : Nat) (hjob : job ∈ x.cancelled) : (x.cancels step).Owed job :=
      (h.owed job hjob).does step
    rw [cancels_eq hs] at howed ⊢
    refine ⟨h.heard_le, by simpa [submissions] using h.counted, fun job hjob => ?_⟩
    rcases List.mem_cons.mp hjob with rfl | hjob
    · -- in front of the new cancellation is everything on its way, and `counted` names the job
      exact .inr ⟨x.toServer, [], rfl, h.counted.symm⟩
    · exact howed job hjob
  | timer timer => exact h.does (submissions_handle _ _)
  | register sink => exact h.does rfl
  | release => exact h.does rfl
  | @serve message others hto =>
    refine ⟨?_, ?_, fun job hjob => ?_⟩
    · have := h.heard_le
      cases message <;> simp [serves] <;> omega
    · have := h.counted
      rw [hto] at this
      cases message <;> simp [serves, submissions] at this ⊢ <;> omega
    · refine (h.owed job ?_).serves hto
      cases message <;> exact hjob
  | say _ _ _ _ =>
    refine ⟨?_, h.counted, fun job hjob =>
      (h.owed job hjob).of_sent (List.prefix_append _ _) rfl rfl⟩
    have := h.heard_le
    simp
    omega
  | @deliver parcel hparcel =>
    have hdoes := h.does (submissions_handle x.session parcel.event)
    exact ⟨(List.getElem?_eq_some_iff.mp hparcel).1, hdoes.counted, hdoes.owed⟩

theorem sound_start (timing : Timing) : (start timing : Exchange σ).Sound :=
  ⟨Nat.le_refl _, rfl, by simp [start]⟩

/-- **The two sides agree in every state that they can reach.** -/
theorem Steps.sound {timing : Timing} (h : Steps (start timing) x) : x.Sound := by
  induction h with
  | refl => exact sound_start timing
  | tail _ step ih => exact ih.step step

end Exchange

end Deposition
