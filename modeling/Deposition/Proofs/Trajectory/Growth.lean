import Deposition.Trajectory

/-!
# What trajectories are made of

A trajectory keeps frames and species and forgets the segments that they came in. Two trajectories
that were fed the same segments are therefore compared through those segments:
`Deposition.Trajectory.MadeOf` says which segments a trajectory is made of, it is kept by
`Deposition.Trajectory.append`, and it determines the species and the frames. Conversely, segments
that made one trajectory make any other, without being refused.
-/

namespace Deposition

namespace Trajectory

variable {σ τ : Type} {t : Trajectory σ} {segments : List Segment} {s : Segment}

/-- The trajectory with one more segment. -/
def extend (t : Trajectory σ) (s : Segment) : Trajectory σ :=
  { t with species := some s.species, frames := t.frames ++ s.frames }

theorem append_eq (h : t.mismatch? s = none) :
    t.append s = .ok (t.extend s,
      t.sinks.map fun sink => ⟨sink, .segment s.id s.species s.frames⟩) := by
  simp [append, h, extend]

theorem append_eq_error {error : TrajectoryError} (h : t.mismatch? s = some error) :
    t.append s = .error error := by
  simp [append, h]

/-- Only a segment with other species is refused. -/
theorem mismatch?_eq_none_iff :
    t.mismatch? s = none ↔ ∀ species, t.species = some species → species = s.species := by
  unfold mismatch?
  split
  · next hnone => simp [hnone]
  · next species hsome =>
    constructor
    · intro h species' hspecies'
      obtain rfl : species = species' := by simpa [hsome] using hspecies'
      split at h
      · cases h
      · split at h
        · cases h
        · next hne => exact Decidable.not_not.mp hne
    · intro h
      obtain rfl := h species hsome
      simp

/-- **The trajectory is made of these segments**, in this order. -/
structure MadeOf (t : Trajectory σ) (segments : List Segment) : Prop where
  /-- Its frames are theirs. -/
  frames_eq : t.frames = segments.flatMap Segment.frames
  /-- The first one has told the species. -/
  species_eq : t.species = segments.head?.map Segment.species
  /-- The others have the same. -/
  alike : ∀ s ∈ segments, t.species = some s.species

theorem madeOf_nil (sinks : List σ) : MadeOf { sinks } [] := ⟨rfl, rfl, by simp⟩

/-- Who follows a trajectory is no matter of what it is made of. -/
theorem MadeOf.withSinks (h : t.MadeOf segments) (sinks : List σ) :
    MadeOf { t with sinks } segments := ⟨h.frames_eq, h.species_eq, h.alike⟩

/-- **One more segment**, if it is not refused. -/
theorem MadeOf.extend (h : t.MadeOf segments) (hs : t.mismatch? s = none) :
    (t.extend s).MadeOf (segments ++ [s]) := by
  have hall : ∀ r ∈ segments, s.species = r.species := fun r hr =>
    (mismatch?_eq_none_iff.mp hs _ (h.alike r hr)).symm
  refine ⟨by simp [Trajectory.extend, h.frames_eq], ?_, fun r hr => ?_⟩
  · cases segments with
    | nil => rfl
    | cons r segments =>
      have := hall r (by simp)
      simp [Trajectory.extend, this]
  · rcases List.mem_append.mp hr with hr | hr
    · simp [Trajectory.extend, hall r hr]
    · obtain rfl := List.mem_singleton.mp hr
      rfl

/-- **What a trajectory is made of determines it**, but for those who follow it. -/
theorem MadeOf.eq {u : Trajectory τ} (ht : t.MadeOf segments) (hu : u.MadeOf segments) :
    u.species = t.species ∧ u.frames = t.frames :=
  ⟨hu.species_eq.trans ht.species_eq.symm, hu.frames_eq.trans ht.frames_eq.symm⟩

/-- **Segments of the same species make a trajectory**, and others do not. -/
theorem exists_madeOf_iff : (∃ t : Trajectory σ, t.MadeOf segments) ↔
    ∀ r ∈ segments, ∀ s ∈ segments, r.species = s.species := by
  constructor
  · rintro ⟨t, ht⟩ r hr s hs
    exact Option.some.inj ((ht.alike r hr).symm.trans (ht.alike s hs))
  · intro h
    refine ⟨{ species := segments.head?.map Segment.species,
              frames := segments.flatMap Segment.frames }, rfl, rfl, fun s hs => ?_⟩
    cases segments with
    | nil => cases hs
    | cons r segments => exact congrArg some (h r (by simp) s hs)

end Trajectory

end Deposition
