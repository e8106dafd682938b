import Deposition.Proofs.Session.Coherence
import Deposition.Timers

/-!
# No download stalls for lack of a timer

A session does not keep its timers; it says when one of them is to be started or stopped, and
whoever carries this out keeps them. So whether a timer is pending is written nowhere in the
session, and yet a download depends on it: a segment that was announced, and whose request or
answer was lost, is fetched only if the retry timer runs out some day.

The states of the two together are `Deposition.Session.Reachable`: users and the connection do
what they like, a timer runs out only if it is pending, its slot is cleared first, and commands are
obeyed in order. The flags of the session tell which timers are pending
(`Deposition.Session.Clocked`), in every such state (`Deposition.Session.Reachable.clocked`).

The retry timer is the delicate one. It is stopped whenever a segment is accepted, before the
download is looked at, and started again only by the look; so it is `Deposition.Session.Look` that
has to start it whenever a segment is missing. The one outcome that starts nothing although a
segment is missing – the segment is already in flight – does not follow an acceptance, and
otherwise finds the timer running.
-/

namespace Deposition

namespace Timers

/-- Whether a timer is pending. -/
def Pending (t : Timers) (timer : Timer) : Prop := (t.find? timer).isSome = true

/-- The timers after several commands, obeyed in order. -/
def obeyAll (t : Timers) (now : Nat) (commands : List Command) : Timers :=
  commands.foldl (fun t command => t.obey now command) t

/-- The timers when an event is handled: one that runs out is no longer pending. -/
def before (t : Timers) : Event → Timers
  | .timer timer => t.cancel timer
  | _ => t

variable {t : Timers} {now after time : Nat} {timer other : Timer} {commands : List Command}

@[simp] theorem obeyAll_nil : t.obeyAll now [] = t := rfl

@[simp] theorem obeyAll_send {message : ClientMessage} :
    t.obeyAll now (.send message :: commands) = t.obeyAll now commands := rfl

@[simp] theorem obeyAll_finished :
    t.obeyAll now (.finished :: commands) = t.obeyAll now commands := rfl

@[simp] theorem obeyAll_schedule : t.obeyAll now (.schedule timer after :: commands) =
    (t.schedule timer (now + after)).obeyAll now commands := rfl

@[simp] theorem obeyAll_cancelTimer :
    t.obeyAll now (.cancelTimer timer :: commands) = (t.cancel timer).obeyAll now commands := rfl

@[simp] theorem obeyAll_append {more : List Command} :
    t.obeyAll now (commands ++ more) = (t.obeyAll now commands).obeyAll now more := by
  simp [obeyAll]

@[simp] theorem obeyAll_cancelTimers :
    t.obeyAll now Session.cancelTimers = (t.cancel .debounce).cancel .retry := rfl

@[simp] theorem pending_schedule :
    (t.schedule timer time).Pending other ↔ timer = other ∨ t.Pending other := by
  rw [Pending, schedule, find?_set]
  split <;> simp_all [Pending]

@[simp] theorem pending_cancel :
    (t.cancel timer).Pending other ↔ timer ≠ other ∧ t.Pending other := by
  rw [Pending, cancel, find?_set]
  split <;> simp_all [Pending]

/-- No timer is pending as soon as neither of the two is. -/
theorem isEmpty_of_not_pending (hd : ¬ t.Pending .debounce) (hr : ¬ t.Pending .retry) :
    t.isEmpty = true := by
  simp_all [Pending, find?, isEmpty]

end Timers

namespace Session

variable {σ : Type} {s s' : Session σ} {t : Timers} {e : Event} {commands : List Command}
  {notices : List (Notice σ)}

/-- **The session tells which timers are pending.** -/
structure Clocked (s : Session σ) (t : Timers) : Prop where
  /-- The time to ask again: a running job has a segment to fetch. -/
  retry : t.Pending .retry ↔ s.running = true ∧ s.flow.next ≤ s.flow.latest
  /-- The delay of a request: one is armed. -/
  debounce : t.Pending .debounce ↔ s.armed = true

namespace Clocked

/-- A job that is over has stopped its timers, whichever were pending. -/
theorem of_stopped (hr : s.running = false) (ha : s.armed = false)
    (hdebounce : ¬ t.Pending .debounce) (hretry : ¬ t.Pending .retry) : s.Clocked t :=
  ⟨by simp [hr, hretry], by simp [ha, hdebounce]⟩

/-- **A look starts the timers that it leaves work for.** Before it, the retry timer is pending if a
segment is in flight and not if there is nothing to fetch; between the two it may be either. -/
theorem of_look (look : s.Look s' commands) (hr : s.running = true) (now : Nat)
    (hin : s.flow.waiting = true → t.Pending .retry)
    (hout : s.flow.latest < s.flow.next → ¬ t.Pending .retry)
    (hdebounce : t.Pending .debounce ↔ s.armed = true) : s'.Clocked (t.obeyAll now commands) := by
  cases look with
  | caughtUp h _ => exact ⟨by simpa [UInt32.not_le.mpr h] using hout h, hdebounce⟩
  | finished h _ => exact of_stopped rfl rfl (by simp) (by simp)
  | inFlight h hw => exact ⟨by simp [hr, h, hin hw], hdebounce⟩
  | requested h _ => exact ⟨by simp [hr, h], by simp⟩

/-- **Every turn keeps the timers in step**, with the slot of a timer that runs out cleared before
and the commands obeyed after. -/
theorem turn (h : s.Clocked t) (coherent : s.Coherent) (turn : s.Turn e s' commands notices)
    (now : Nat) : s'.Clocked ((t.before e).obeyAll now commands) := by
  have hin (hr : s.running = true) (hw : s.flow.waiting = true) : t.Pending .retry :=
    h.retry.mpr ⟨hr, coherent.waiting_le hw⟩
  have hout (hlt : s.flow.latest < s.flow.next) : ¬ t.Pending .retry := fun hp =>
    UInt32.not_le.mpr hlt (h.retry.mp hp).2
  cases turn with
  | ignored hi =>
    cases hi with
    | resting hr =>
      -- the event may be a timer; but nothing is pending, so clearing its slot changes nothing
      have ha : s.armed = false := coherent.armed_eq_false hr
      have hdebounce : ¬ t.Pending .debounce := by simp [h.debounce, ha]
      have hretry : ¬ t.Pending .retry := by simp [h.retry, hr]
      refine of_stopped hr ha ?_ ?_ <;> cases e <;> simp [Timers.before, hdebounce, hretry]
    | _ => exact h
  | announced hr _ look =>
    -- an announcement never takes back another, so if nothing is missing after it nothing was
    refine of_look look hr now (hin hr) (fun hlt => hout ?_) h.debounce
    simp only [UInt32.lt_iff_toNat_lt, Flow.toNat_latest_announce, Flow.next_announce] at hlt ⊢
    omega
  | notReady _ _ _ => exact ⟨h.retry, h.debounce⟩
  | cancelled _ _ => exact of_stopped rfl rfl (by simp) (by simp)
  | failed _ _ => exact of_stopped rfl rfl (by simp) (by simp)
  | accepted hr _ _ _ look =>
    -- the timer is stopped, and nothing is in flight that would keep the look from starting it
    rw [Timers.obeyAll_cancelTimer]
    refine of_look look hr now ?_ ?_ ?_
    · simp [appending, Flow.received]
    · simp
    · simpa [Timers.before, appending] using h.debounce
  | delayOver hr =>
    have hobey : (t.cancel .debounce).obeyAll now (if s.armed && s.flow.waiting then
        [.send (.request s.flow.next)] else []) = t.cancel .debounce := by split <;> rfl
    rw [Timers.before, hobey]
    exact ⟨by simpa using h.retry, by simp⟩
  | askedAgain hr hw =>
    exact ⟨by simp [hr, coherent.waiting_le hw], by simpa [Timers.before] using h.debounce⟩
  | lookedAgain hr hw look =>
    refine of_look look hr now (by simp [hw]) (by simp [Timers.before]) ?_
    simpa [Timers.before] using h.debounce

/-- **One event more.** -/
theorem handle (h : s.Clocked t) (coherent : s.Coherent) (e : Event) (now : Nat) :
    (s.handle e).1.Clocked ((t.before e).obeyAll now (s.handle e).2.commands) := by
  have hnoted : (s.noted e).Clocked t := ⟨by simpa using h.retry, by simpa using h.debounce⟩
  exact hnoted.turn (coherent.noted e) (turn_handle s e) now

/-- **Every answer keeps the timers in step**, unless it is to a timer that runs out: that is
`handle`. -/
theorem answer (h : s.Clocked t) (coherent : s.Coherent) {deed : Deed σ}
    (hdeed : ∀ timer, deed ≠ .event (.timer timer)) (answer : s.Answer deed s' commands notices)
    (now : Nat) : s'.Clocked (t.obeyAll now commands) := by
  cases answer with
  | notSubmitted _ => exact h
  | submitted _ => exact ⟨by simp [started], by simp [started]⟩
  | notCancelled _ => exact h
  | cancelled _ => exact of_stopped rfl rfl (by simp) (by simp)
  | handled e =>
    have hbefore : t.before e = t := by
      cases e with
      | timer timer => exact absurd rfl (hdeed timer)
      | _ => rfl
    have hhandle := h.handle coherent e now
    rw [hbefore] at hhandle
    exact hhandle
  | registered _ => exact ⟨h.retry, h.debounce⟩
  | released => exact ⟨h.retry, h.debounce⟩

end Clocked

/-- **The states that a session and its timers can reach.** Nothing is assumed of the clock: a
pending timer may run out at any time, and before any other. -/
inductive Reachable (timing : Timing) : Session σ → Timers → Prop
  /-- A new session, with no timer pending. -/
  | start : Reachable timing { timing } {}
  /-- Anything is done to the session, except that a timer runs out. -/
  | deed {s : Session σ} {t : Timers} (reachable : Reachable timing s t) (deed : Deed σ)
      (hdeed : ∀ timer, deed ≠ .event (.timer timer)) (now : Nat) :
      Reachable timing (s.perform deed).1 (t.obeyAll now (s.perform deed).2.commands)
  /-- A pending timer runs out; its slot is cleared first. -/
  | runsOut {s : Session σ} {t : Timers} (reachable : Reachable timing s t) {timer : Timer}
      (pending : t.Pending timer) (now : Nat) :
      Reachable timing (s.handle (.timer timer)).1
        ((t.cancel timer).obeyAll now (s.handle (.timer timer)).2.commands)

variable {timing : Timing}

/-- Sinks that register bring about nothing. -/
theorem Reachable.registerSinks (reachable : Reachable timing s t) (sinks : List σ) :
    Reachable timing (sinks.foldl registerSink s) t := by
  induction sinks generalizing s with
  | nil => exact reachable
  | cons sink sinks ih => exact ih (reachable.deed (.register sink) (by simp) 0)

/-- In every reachable state the flags of the session agree. -/
theorem Reachable.coherent (reachable : Reachable timing s t) : s.Coherent := by
  induction reachable with
  | start => exact .of_fresh _ _ _ _
  | deed _ _ _ _ ih => exact ih.perform _
  | runsOut _ _ _ ih => exact ih.handle _

/-- In every reachable state they tell which timers are pending. -/
theorem Reachable.clocked (reachable : Reachable timing s t) : s.Clocked t := by
  induction reachable with
  | start => exact ⟨by simp [Timers.Pending, Timers.find?], by simp [Timers.Pending, Timers.find?]⟩
  | deed reachable _ hdeed now ih => 
    exact ih.answer reachable.coherent hdeed (answer_perform _ _) now
  | runsOut reachable _ now ih => exact ih.handle reachable.coherent _ now

/-- Whether the session asks for the next segment when a timer runs out. -/
def AsksAt (s : Session σ) (timer : Timer) : Prop :=
  .send (.request s.flow.next) ∈ (s.handle (.timer timer)).2.commands

/-- **Whether the retry timer will ask for the next segment**: either itself, or by starting the
delay of a request that does. -/
def Recovers (s : Session σ) (t : Timers) : Prop :=
  s.AsksAt .retry ∨
    ∀ now, ((t.cancel .retry).obeyAll now (s.handle (.timer .retry)).2.commands).Pending .debounce ∧
      (s.handle (.timer .retry)).1.flow.next = s.flow.next ∧
      (s.handle (.timer .retry)).1.AsksAt .debounce

/-- A running job that misses a segment has one way or the other to ask for it. -/
theorem recovers (hr : s.running = true) (h : s.flow.next ≤ s.flow.latest) : s.Recovers t := by
  cases hw : s.flow.waiting with
  | true => exact .inl (by simp [AsksAt, Session.handle, onTimer, hr, hw])
  | false =>
    have hflow : s.flow.evaluate = ({ s.flow with waiting := true }, .request s.flow.next) := by
      rw [Flow.evaluate, if_neg (UInt32.not_lt.mpr h), if_neg (by simp [hw])]
    right
    intro now
    simp [AsksAt, Session.handle, onTimer, evaluate, hr, hw, hflow]

/-- **No download stalls for lack of a timer.** In every state that a session and its timers can
reach, the retry timer is pending exactly while a running job has a segment to fetch, and the delay
of a request exactly while one is armed, in a running job. So a segment that was announced and is
missing will be asked for, and a job that is over leaves no timer behind. -/
theorem timers_of_reachable (reachable : Reachable timing s t) :
    (t.Pending .retry ↔ s.running = true ∧ s.flow.next ≤ s.flow.latest) ∧
      (t.Pending .debounce ↔ s.armed = true) ∧ (s.armed = true → s.running = true) ∧
      (s.running = true → s.flow.next ≤ s.flow.latest → t.Pending .retry ∧ s.Recovers t) ∧
      (s.running = false → t.isEmpty = true) := by
  have clocked := reachable.clocked
  have coherent := reachable.coherent
  refine ⟨clocked.retry, clocked.debounce, coherent.running_of_armed, fun hr h => ?_, fun hr => ?_⟩
  · exact ⟨clocked.retry.mpr ⟨hr, h⟩, recovers hr h⟩
  · refine Timers.isEmpty_of_not_pending ?_ ?_
    · simp [clocked.debounce, coherent.armed_eq_false hr]
    · simp [clocked.retry, hr]

/-- The timers in a state in which a segment has been announced and not yet been asked for. -/
theorem timers_of_announced :
    ∃ (s : Session Unit) (t : Timers), Reachable {} s t ∧ s.running = true ∧
      t.Pending .retry ∧ t.Pending .debounce ∧ s.Recovers t := by
  obtain ⟨text, hp⟩ : ∃ text, ServerMessage.parse text = .ok (.newFrames ⟨1, 2⟩) :=
    ⟨"new_frames\x7b\"l\":1,\"f\":2\x7d", by cbv⟩
  obtain ⟨s, t, announced, hr, hmissing, ha⟩ : ∃ (s : Session Unit) (t : Timers),
      Reachable {} s t ∧ s.running = true ∧ s.flow.next ≤ s.flow.latest ∧ s.armed = true := by
    have fresh : Reachable {} ({} : Session Unit) {} := .start
    have submitted := fresh.deed (.event .connected) (by simp) 0
      |>.deed (.submit ⟨[⟨"ETH", 1⟩], []⟩) (by simp) 0
    refine ⟨_, _, submitted.deed (.event (.text text)) (by simp) 0, ?_, ?_, ?_⟩ <;>
      simp only [perform, handle, onText, hp] <;> decide
  obtain ⟨-, hdebounce, -, hrecovers, -⟩ := timers_of_reachable announced
  exact ⟨s, t, announced, hr, (hrecovers hr hmissing).1, hdebounce.mpr ha,
    (hrecovers hr hmissing).2⟩

end Session

end Deposition
