import Deposition.Proofs.Segment.Format
import Deposition.Proofs.Trajectory.Growth

/-!
# Runs of a trajectory

A trajectory is told to append segments, to register and to release sinks, and to start over. Such
an order is a `Deposition.Trajectory.Operation`, and a run is any list of them: a segment that does
not belong is refused, and the run goes on.

What a trajectory is after a run was decided by the segments that it took since it started over
last, and by nothing else (`Deposition.Trajectory.taken`). This is `Deposition.Trajectory.MadeOf`,
kept by each operation (`Deposition.Trajectory.MadeOf.perform`) and so by each run. A segment counts
even if it has no frames, because the first one that is taken decides the species of all that
follow.
-/

namespace Deposition

namespace Trajectory

variable {σ : Type} {t : Trajectory σ} {segments : List Segment} {s : Segment}

/-- **What a trajectory is told to do.** -/
inductive Operation (σ : Type)
  /-- A segment is appended. -/
  | append (segment : Segment)
  /-- A sink is registered. -/
  | register (sink : σ)
  /-- The sinks are released. -/
  | release
  /-- The trajectory starts over. -/
  | clear

/-- One operation, and what the sinks are told. A segment that is refused changes nothing. -/
def perform (t : Trajectory σ) : Operation σ → Trajectory σ × List (Notice σ)
  | .append s =>
    match t.append s with
    | .ok step => step
    | .error _ => (t, [])
  | .register sink => (t.register sink, [])
  | .release => t.releaseSinks
  | .clear => t.clear

theorem perform_append_ok (h : t.mismatch? s = none) : t.perform (.append s) =
    (t.extend s, t.sinks.map fun sink => ⟨sink, .segment s.id s.species s.frames⟩) := by
  rw [perform, append_eq h]

theorem perform_append_error {error : TrajectoryError} (h : t.mismatch? s = some error) :
    t.perform (.append s) = (t, []) := by
  rw [perform, append_eq_error h]

/-- Several operations, and everything that the sinks are told. -/
def run (t : Trajectory σ) : List (Operation σ) → Trajectory σ × List (Notice σ)
  | [] => (t, [])
  | op :: ops =>
    let (u, notices) := t.perform op
    let (v, more) := u.run ops
    (v, notices ++ more)

theorem run_cons (t : Trajectory σ) (op : Operation σ) (ops : List (Operation σ)) :
    t.run (op :: ops) = (((t.perform op).1.run ops).1,
      (t.perform op).2 ++ ((t.perform op).1.run ops).2) := rfl

/-- **A run in two parts** is the second run after the first. -/
theorem run_append (t : Trajectory σ) (ops more : List (Operation σ)) :
    t.run (ops ++ more) = (((t.run ops).1.run more).1,
      (t.run ops).2 ++ ((t.run ops).1.run more).2) := by
  induction ops generalizing t with
  | nil => rfl
  | cons op ops ih => simp [run_cons, ih]

/-! ### What is taken -/

/-- The segments taken since the trajectory started over last, with one operation more: a segment
counts if it is not refused. -/
def taking (t : Trajectory σ) (segments : List Segment) : Operation σ → List Segment
  | .append s => if (t.append s).isOk then segments ++ [s] else segments
  | .register _ | .release => segments
  | .clear => []

/-- **The segments taken** since the trajectory started over last, in a run before which these had
been taken. -/
def taken (t : Trajectory σ) (segments : List Segment) : List (Operation σ) → List Segment
  | [] => segments
  | op :: ops => (t.perform op).1.taken (t.taking segments op) ops

/-- **One operation** leaves a trajectory made of what has been taken. -/
theorem MadeOf.perform (h : t.MadeOf segments) (op : Operation σ) :
    (t.perform op).1.MadeOf (t.taking segments op) := by
  cases op with
  | append s =>
    cases hm : t.mismatch? s with
    | some error =>
      rw [perform_append_error hm, taking, append_eq_error hm]
      exact h
    | none =>
      rw [perform_append_ok hm, taking, append_eq hm]
      exact h.extend hm
  | register sink => exact h.withSinks _
  | release => exact h.withSinks _
  | clear => exact madeOf_nil []

/-- **So does a run.** -/
theorem MadeOf.run (h : t.MadeOf segments) (ops : List (Operation σ)) :
    (t.run ops).1.MadeOf (t.taken segments ops) := by
  induction ops generalizing t segments with
  | nil => exact h
  | cons op ops ih => exact ih (h.perform op)

/-- Frames stay where they are, unless the trajectory starts over. -/
theorem frames_prefix_perform (t : Trajectory σ) {op : Operation σ} (h : op ≠ .clear) :
    t.frames <+: (t.perform op).1.frames := by
  cases op with
  | append s =>
    cases hm : t.mismatch? s with
    | some error => exact ⟨[], by rw [perform_append_error hm, List.append_nil]⟩
    | none => exact ⟨s.frames, by rw [perform_append_ok hm, extend]⟩
  | register sink => exact List.prefix_rfl
  | release => exact List.prefix_rfl
  | clear => exact absurd rfl h

theorem frames_prefix_run (t : Trajectory σ) {ops : List (Operation σ)} (h : .clear ∉ ops) :
    t.frames <+: (t.run ops).1.frames := by
  induction ops generalizing t with
  | nil => exact List.prefix_rfl
  | cons op ops ih =>
    rw [List.mem_cons, not_or] at h
    exact (frames_prefix_perform t (Ne.symm h.1)).trans (ih _ h.2)

/-- **Why a segment is refused**: it has other species than the job. -/
theorem mismatch?_of_ne {species : Bytes} (h : t.species = some species)
    (hne : species ≠ s.species) : t.mismatch? s = some (if species.length ≠ s.species.length then
      .particleCountMismatch s.id species.length s.species.length else .speciesMismatch s.id) := by
  rw [mismatch?, h]
  dsimp only
  split_ifs <;> rfl

theorem exists_append_error_iff : (∃ error, t.append s = .error error) ↔
    ∃ species, t.species = some species ∧ species ≠ s.species := by
  constructor
  · rintro ⟨error, herror⟩
    by_contra hnone
    have hm : t.mismatch? s = none := mismatch?_eq_none_iff.mpr fun species hspecies =>
      Decidable.not_not.mp fun hne => hnone ⟨species, hspecies, hne⟩
    rw [append_eq hm] at herror
    cases herror
  · rintro ⟨species, hspecies, hne⟩
    exact ⟨_, append_eq_error (mismatch?_of_ne hspecies hne)⟩

/-- What is made of segments has species as soon as there is one. -/
theorem MadeOf.isSome_species_iff (h : t.MadeOf segments) : t.species.isSome ↔ segments ≠ [] := by
  rw [h.species_eq]
  cases segments <;> simp

/-- Frames that came with segments that can be read have a position for each particle. -/
theorem MadeOf.length_eq (h : t.MadeOf segments) (hread : ∀ s ∈ segments, s.WellFormed) :
    ∀ frame ∈ t.frames, frame.length = t.particleCount := by
  intro frame hframe
  rw [h.frames_eq] at hframe
  obtain ⟨s, hs, hframe⟩ := List.mem_flatMap.mp hframe
  rw [particleCount, h.alike s hs]
  exact (hread s hs).length_eq frame hframe

/-- The last frame goes with the species of the job. -/
theorem lastFrame?_eq_some_iff {last : AnalysisFrame} : t.lastFrame? = some last ↔
    t.frames.getLast? = some last.frame ∧ t.species = some last.species := by
  obtain ⟨species, frame⟩ := last
  rw [lastFrame?]
  cases t.species <;> cases t.frames.getLast? <;> simp [and_comm]

/-- It is there as soon as there are frames. -/
theorem MadeOf.isSome_lastFrame?_iff (h : t.MadeOf segments) :
    t.lastFrame?.isSome ↔ t.frames ≠ [] := by
  cases hlast : t.frames.getLast? with
  | none => simp [lastFrame?, List.getLast?_eq_none_iff.mp hlast]
  | some frame =>
    have hmem := List.mem_of_getLast? hlast
    rw [h.frames_eq] at hmem
    obtain ⟨s, hs, -⟩ := List.mem_flatMap.mp hmem
    have hne : t.frames ≠ [] := List.ne_nil_of_mem (List.mem_of_getLast? hlast)
    simp [lastFrame?, hlast, h.alike s hs, hne]

/-! ### Any run -/

/-- **A trajectory is what it has taken.** After any operations on a new one, its frames are those
of the segments that it has taken since it started over last, in order; it has species as soon as
there is such a segment, and they are those of every one. A segment is refused if and only if there
are species and it has others, with an error that says whether at least their number is right, and
then nothing has happened. What is there stays in its place until the trajectory starts over. And if
every segment was read from a buffer, each frame has a position for each particle, so that the last
one can be analysed. -/
theorem is_what_was_taken (ops : List (Operation σ)) :
    let t := (run {} ops).1
    let segments := taken {} [] ops
    t.frames = segments.flatMap Segment.frames ∧
    (t.species.isSome ↔ segments ≠ []) ∧ (∀ s ∈ segments, t.species = some s.species) ∧
    (∀ s, (∃ error, t.append s = .error error) ↔
      ∃ species, t.species = some species ∧ species ≠ s.species) ∧
    (∀ s species, t.species = some species → species ≠ s.species →
      t.append s = .error (if species.length ≠ s.species.length then
        .particleCountMismatch s.id species.length s.species.length else .speciesMismatch s.id) ∧
      t.perform (.append s) = (t, [])) ∧
    (∀ more : List (Operation σ), .clear ∉ more → ∀ (i : Nat) (frame : Frame),
      t.frames[i]? = some frame → (run {} (ops ++ more)).1.frames[i]? = some frame) ∧
    ((∀ s ∈ segments, ∃ buffer, Segment.decode buffer = .ok s) →
      (∀ frame ∈ t.frames, frame.length = t.particleCount) ∧
      (t.lastFrame?.isSome ↔ t.frames ≠ []) ∧
      ∀ last, t.lastFrame? = some last → t.frames.getLast? = some last.frame ∧
        t.species = some last.species ∧ last.frame.length = last.species.length) := by
  intro t segments
  have made : t.MadeOf segments := (madeOf_nil []).run ops
  refine ⟨made.frames_eq, made.isSome_species_iff, made.alike, fun s => exists_append_error_iff,
    fun s species hspecies hne => ?_, fun more hmore i frame hframe => ?_, fun hread => ?_⟩
  · have hm := mismatch?_of_ne hspecies hne
    exact ⟨append_eq_error hm, perform_append_error hm⟩
  · obtain ⟨hi, rfl⟩ := List.getElem?_eq_some_iff.mp hframe
    rw [run_append]
    exact List.prefix_iff_getElem?.mp (frames_prefix_run t hmore) i hi
  · have hlength := made.length_eq fun s hs => by
      obtain ⟨buffer, hbuffer⟩ := hread s hs
      exact Segment.wellFormed_of_decode hbuffer
    refine ⟨hlength, made.isSome_lastFrame?_iff, fun last hlast => ?_⟩
    obtain ⟨hframe, hspecies⟩ := lastFrame?_eq_some_iff.mp hlast
    refine ⟨hframe, hspecies, ?_⟩
    rw [hlength _ (List.mem_of_getLast? hframe), particleCount, hspecies]
    rfl

/-- A run that starts over. Of what comes then the first segment has no frames and decides that
there are two particles; one with one particle is refused, and so is one with others. -/
theorem is_what_was_taken_of_two :
    ∃ (ops : List (Operation Unit)) (t : Trajectory Unit), (run {} ops).1 = t ∧
      ops = [.append ⟨1, [7], [[.origin]]⟩, .register (), .clear, .append ⟨1, [7, 8], []⟩,
        .append ⟨2, [7], [[.origin]]⟩, .append ⟨2, [7, 8], [[.origin, .origin]]⟩] ∧
      t.frames = [[.origin, .origin]] ∧ t.species = some [7, 8] ∧
      t.append ⟨3, [7], []⟩ = .error (.particleCountMismatch 3 2 1) ∧
      t.append ⟨3, [7, 9], []⟩ = .error (.speciesMismatch 3) ∧
      (run {} (ops ++ [.append ⟨3, [7, 8], [[.origin, .origin]]⟩, .release])).1.frames[0]? =
        some [.origin, .origin] ∧
      (∀ frame ∈ t.frames, frame.length = t.particleCount) ∧
      ∀ last, t.lastFrame? = some last → last.frame.length = last.species.length := by
  let ops : List (Operation Unit) := [.append ⟨1, [7], [[.origin]]⟩, .register (), .clear,
    .append ⟨1, [7, 8], []⟩, .append ⟨2, [7], [[.origin]]⟩,
    .append ⟨2, [7, 8], [[.origin, .origin]]⟩]
  have htaken : taken {} [] ops = [⟨1, [7, 8], []⟩, ⟨2, [7, 8], [[.origin, .origin]]⟩] := rfl
  obtain ⟨hframes, -, hspecies, -, hrefused, hstays, hread⟩ := is_what_was_taken ops
  rw [htaken] at hframes hspecies hread
  have hfirst := hspecies _ List.mem_cons_self
  have hbuffers : ∀ s ∈ [⟨1, [7, 8], []⟩, ⟨2, [7, 8], [[.origin, .origin]]⟩],
      ∃ buffer, Segment.decode buffer = .ok s := by
    intro s hs
    simp only [List.mem_cons, List.not_mem_nil, or_false] at hs
    obtain rfl | rfl := hs
    · exact ⟨Segment.encode 1 [7, 8] [], rfl⟩
    · exact ⟨Segment.encode 2 [7, 8] [[.origin, .origin]], rfl⟩
  obtain ⟨hlength, -, hlast⟩ := hread hbuffers
  exact ⟨ops, _, rfl, rfl, hframes, hfirst, (hrefused ⟨3, [7], []⟩ _ hfirst (by decide)).1,
    (hrefused ⟨3, [7, 9], []⟩ _ hfirst (by decide)).1,
    hstays [.append ⟨3, [7, 8], [[.origin, .origin]]⟩, .release] (by simp) 0 _
      (by rw [hframes]; rfl),
    hlength, fun last h => (hlast last h).2.2⟩

end Trajectory

end Deposition
