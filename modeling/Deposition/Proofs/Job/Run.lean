import Deposition.Job.Client
import Mathlib.Data.List.Induction

/-!
# Runs of a client

The two tasks of a client take turns in any order, so a run of it is any list of moves, each with
the time at which it is made. What the connection does in the course of it – what it dials, writes
and passes on – is kept in order.

Everything said of runs is said by one induction, `Deposition.Client.moves_induction`, whose
predicate sees the moves made, the client that has come of them and what the connection has done.
-/

namespace Deposition

namespace Client

/-- The client of a job that is about to be run. -/
def start (preferences : Preferences) (configuration : Configuration) (options : JobOptions)
    (files : Files) : Client :=
  { job := .start preferences configuration options files }

/-- A run of the client, with everything that the connection does in order. -/
def run (c : Client) : List (Nat × Move) → Client × List Connection.Action
  | [] => (c, [])
  | (now, m) :: moves =>
    let (d, actions) := c.move now m
    let (e, more) := d.run moves
    (e, actions ++ more)

@[simp] theorem run_nil (c : Client) : c.run [] = (c, []) := rfl

theorem run_cons (c : Client) (now : Nat) (m : Move) (moves : List (Nat × Move)) :
    c.run ((now, m) :: moves) = (((c.move now m).1.run moves).1,
      (c.move now m).2 ++ ((c.move now m).1.run moves).2) := rfl

/-- **A run in two parts** is the second run after the first. -/
theorem run_append (c : Client) (ms ns : List (Nat × Move)) :
    c.run (ms ++ ns) = (((c.run ms).1.run ns).1, (c.run ms).2 ++ ((c.run ms).1.run ns).2) := by
  induction ms generalizing c with
  | nil => simp
  | cons m ms ih =>
    obtain ⟨now, m⟩ := m
    simp [run_cons, ih]

/-- **A run and one move more.** -/
theorem run_concat (c : Client) (moves : List (Nat × Move)) (now : Nat) (m : Move) :
    c.run (moves ++ [(now, m)]) =
      (((c.run moves).1.move now m).1, (c.run moves).2 ++ ((c.run moves).1.move now m).2) := by
  simp [run_append, run_cons]

/-- **The induction over moves**: what holds before any move, and is kept by every move of those
allowed, holds of the moves, of the client at the end and of all that the connection has done. -/
theorem moves_induction {P : List (Nat × Move) → Client → List Connection.Action → Prop}
    {c : Client} (moves : List (Nat × Move)) (start : P [] c [])
    (step : ∀ ms now m, (now, m) ∈ moves → P ms (c.run ms).1 (c.run ms).2 →
      P (ms ++ [(now, m)]) ((c.run ms).1.move now m).1
        ((c.run ms).2 ++ ((c.run ms).1.move now m).2)) :
    P moves (c.run moves).1 (c.run moves).2 := by
  induction moves using List.reverseRecOn with
  | nil => exact start
  | append_singleton ms m ih =>
    obtain ⟨now, m⟩ := m
    rw [run_concat]
    exact step ms now m (by simp) (ih fun ms' now' m' hm' => step ms' now' m' (by simp [hm']))

end Client

end Deposition
