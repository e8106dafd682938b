import Deposition.Session.Basic

/-!
# Pending timers

Whoever carries out the commands of a session keeps its two timers: for each, the time at which it
runs out, or nothing. The one that runs out first is due; of two that run out together it is the
delay of a request.
-/

namespace Deposition

/-- The pending timers, by the time at which they run out. -/
structure Timers where
  /-- The delay before a segment is asked for. -/
  debounce : Option Nat := none
  /-- The time to ask again. -/
  retry : Option Nat := none
deriving DecidableEq

namespace Timers

/-- The time at which a timer runs out, if it is pending. -/
def find? (t : Timers) : Timer → Option Nat
  | .debounce => t.debounce
  | .retry => t.retry

/-- The timers with one of them set or cleared. -/
def set (t : Timers) (timer : Timer) (time : Option Nat) : Timers :=
  match timer with
  | .debounce => { t with debounce := time }
  | .retry => { t with retry := time }

/-- Starts a timer, in place of a pending one. -/
def schedule (t : Timers) (timer : Timer) (time : Nat) : Timers := t.set timer (some time)

/-- Stops a timer. -/
def cancel (t : Timers) (timer : Timer) : Timers := t.set timer none

/-- The timer that runs out first, and when. -/
def nextDue? (t : Timers) : Option (Timer × Nat) :=
  match t.debounce, t.retry with
  | some d, some r => if r < d then some (.retry, r) else some (.debounce, d)
  | some d, none => some (.debounce, d)
  | none, some r => some (.retry, r)
  | none, none => none

/-- Whether no timer is pending. -/
def isEmpty (t : Timers) : Bool := t.debounce.isNone && t.retry.isNone

/-- The timers after a command that is carried out at the given time. -/
def obey (t : Timers) (now : Nat) : Command → Timers
  | .schedule timer after => t.schedule timer (now + after)
  | .cancelTimer timer => t.cancel timer
  | _ => t

@[simp] theorem find?_set (t : Timers) (a b : Timer) (time : Option Nat) :
    (t.set a time).find? b = if a = b then time else t.find? b := by
  cases a <;> cases b <;> rfl

/-- A timer is due exactly when one is pending. -/
theorem nextDue?_eq_none_iff {t : Timers} : t.nextDue? = none ↔ t.isEmpty = true := by
  rcases t with ⟨_ | d, _ | r⟩ <;> simp [nextDue?, isEmpty]
  split <;> simp

end Timers

end Deposition
