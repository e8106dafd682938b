import Deposition.Proofs.Archive.Pieces
import Deposition.Proofs.Segment.Format
import Deposition.Proofs.Trajectory.Growth
import Mathlib.Data.Set.List

/-!
# What is archived reads back

The items of an archive make a trajectory, if they are segments of one job. What the items are is
settled in `Deposition.Proofs.Archive.Pieces`, for chunks of any tags and any contents; what they
make is settled here. A trajectory comes of it exactly when no item is an error and all segments
have the same species, and then it has their frames (`Deposition.Archive.reads_back`).

An archive that was written segment by segment is the case that matters most. Each of its chunks
holds a segment that can be read (`Deposition.Archive.Holds`), so its items are the segments that
were written, and it makes the trajectory that they made (`Deposition.Archive.load_chunks`).
-/

namespace Deposition

namespace Archive

/-! ### Making a trajectory -/

variable {σ τ : Type} {decompress : Bytes → Nat → Option Bytes}

/-- **Segments that made a trajectory make it again**, from wherever the other one has got to. -/
theorem assemble_of_madeOf {t : Trajectory σ} {segments : List Segment} :
    ∀ {before : List Segment} {v : Trajectory τ}, t.MadeOf (before ++ segments) → v.MadeOf before →
      ∃ u, assemble v (segments.map .ok) = .ok u ∧ u.MadeOf (before ++ segments) := by
  induction segments with
  | nil =>
    intro before v _ hv
    exact ⟨v, rfl, by simpa using hv⟩
  | cons s segments ih =>
    intro before v ht hv
    have hmatch : v.mismatch? s = none := by
      rw [Trajectory.mismatch?_eq_none_iff]
      intro species hspecies
      rw [hv.species_eq] at hspecies
      -- the species of `v` are those of its first segment, and all segments of `t` have the same
      cases before with
      | nil => cases hspecies
      | cons r before =>
        obtain rfl : r.species = species := by simpa using hspecies
        have hr := ht.alike r (by simp)
        have hs := ht.alike s (by simp)
        exact Option.some.inj (hr.symm.trans hs)
    have happend : before ++ s :: segments = before ++ [s] ++ segments := by simp
    rw [happend] at ht ⊢
    obtain ⟨u, hu, hmade⟩ := ih ht (hv.extend hmatch)
    exact ⟨u, by simpa [assemble, Trajectory.append_eq hmatch] using hu, hmade⟩

/-- Items that make a trajectory are segments, and it is made of them. -/
theorem madeOf_of_assemble {items : List (Except ArchiveError Segment)} {u : Trajectory σ} :
    ∀ {before : List Segment} {v : Trajectory σ}, v.MadeOf before → assemble v items = .ok u →
      ∃ segments, items = segments.map .ok ∧ u.MadeOf (before ++ segments) := by
  induction items with
  | nil =>
    intro before v hv h
    obtain rfl : v = u := Except.ok.inj h
    exact ⟨[], rfl, by simpa using hv⟩
  | cons item items ih =>
    intro before v hv h
    cases item with
    | error error => cases h
    | ok s =>
      cases hmatch : v.mismatch? s with
      | some error => simp [assemble, Trajectory.append_eq_error hmatch] at h
      | none =>
        simp only [assemble, Trajectory.append_eq hmatch] at h
        obtain ⟨segments, rfl, hmade⟩ := ih (hv.extend hmatch) h
        exact ⟨s :: segments, rfl, by simpa using hmade⟩

/-- **Items make a trajectory exactly when they are segments of one job.** -/
theorem exists_assemble_iff {items : List (Except ArchiveError Segment)} :
    (∃ u : Trajectory σ, assemble {} items = .ok u) ↔
      (∀ item ∈ items, ∃ s, item = .ok s) ∧
      ∀ r s, .ok r ∈ items → .ok s ∈ items → r.species = s.species := by
  constructor
  · rintro ⟨u, hu⟩
    obtain ⟨segments, rfl, hmade⟩ := madeOf_of_assemble (Trajectory.madeOf_nil []) hu
    have halike := Trajectory.exists_madeOf_iff.mp ⟨u, hmade⟩
    simp only [List.nil_append] at halike
    refine ⟨fun item hitem => ?_, fun r s hr hs => ?_⟩
    · obtain ⟨s, -, rfl⟩ := List.mem_map.mp hitem
      exact ⟨s, rfl⟩
    · exact halike r (by simpa using hr) s (by simpa using hs)
  · rintro ⟨hok, halike⟩
    obtain ⟨segments, rfl⟩ : ∃ segments : List Segment, items = segments.map .ok := by
      have hrange : items ∈ Set.range (List.map Except.ok) := by
        rw [Set.range_list_map]
        intro item hitem
        obtain ⟨s, rfl⟩ := hok item hitem
        exact ⟨s, rfl⟩
      obtain ⟨segments, hsegments⟩ := hrange
      exact ⟨segments, hsegments.symm⟩
    obtain ⟨t, ht⟩ : ∃ t : Trajectory σ, t.MadeOf ([] ++ segments) :=
      Trajectory.exists_madeOf_iff.mpr fun r hr s hs =>
        halike r s (List.mem_map_of_mem hr) (List.mem_map_of_mem hs)
    obtain ⟨u, hu, -⟩ := assemble_of_madeOf ht (Trajectory.madeOf_nil (σ := σ) [])
    exact ⟨u, hu⟩

/-- The trajectory of an archive is what its items make. -/
theorem load_of_items {source : Source} {found : List (Except ArchiveError Segment)}
    (h : itemsUsing decompress source = .ok found) :
    loadUsing decompress source = assemble ({} : Trajectory σ) found := by
  rw [loadUsing, h]
  rfl

/-- An error makes no trajectory. -/
theorem load_ne_ok_of_error {source : Source} {found : List (Except ArchiveError Segment)}
    {e : ArchiveError} (h : itemsUsing decompress source = .ok found) (he : .error e ∈ found)
    (t : Trajectory σ) : loadUsing decompress source ≠ .ok t := by
  rw [load_of_items h]
  intro ht
  obtain ⟨s, hs⟩ := (exists_assemble_iff.mp ⟨t, ht⟩).1 _ he
  cases hs

theorem assemble_append (t : Trajectory σ) (items more : List (Except ArchiveError Segment)) :
    assemble t (items ++ more) = (assemble t items).bind fun u => assemble u more := by
  induction items generalizing t with
  | nil => rfl
  | cons item items ih =>
    cases item with
    | error e => rfl
    | ok s =>
      simp only [List.cons_append, assemble]
      cases t.append s with
      | error e => rfl
      | ok grown => exact ih grown.1

/-- What stands behind an error makes no difference. -/
theorem assemble_throughError (t : Trajectory σ) (items : List (Except ArchiveError Segment)) :
    assemble t (throughError items) = assemble t items := by
  induction items generalizing t with
  | nil => rfl
  | cons item items ih =>
    cases item with
    | error e => rfl
    | ok s =>
      simp only [throughError, assemble]
      cases t.append s with
      | error e => rfl
      | ok grown => exact ih grown.1

/-- **What is written chunk by chunk reads back**, whatever the chunks are. Writing gives a file; a
reader of it gives, one after the other, the segments that are in the chunks where segments are
expected, up to the first chunk that holds none, which it names by its place among all chunks, and
nothing from then on. Chunks of other tags change no more than that place. The archive makes a
trajectory exactly when every item is a segment and all of them have the same species, and then the
trajectory is all their frames in order. -/
theorem reads_back {compress : Bytes → Bytes} (hlz : Compresses compress decompress)
    (entries : List Entry) (hfits : ∀ e ∈ entries, Chunk.Fits compress e.payload) :
    ∃ file r, writeUsing compress entries = .ok file ∧
      Reader.startUsing decompress (.ofBytes file) = .ok r ∧
      (∀ n, r.nth n = (itemsFrom 0 entries)[n]?) ∧
      ((itemsFrom 0 entries).map (Except.mapError ArchiveError.unplaced) =
        (itemsFrom 0 (entries.filter Entry.isSegment)).map
          (Except.mapError ArchiveError.unplaced)) ∧
      ((∃ t : Trajectory σ, loadUsing decompress (.ofBytes file) = .ok t) ↔
        (∀ item ∈ itemsFrom 0 entries, ∃ s, item = .ok s) ∧
        ∀ r s, .ok r ∈ itemsFrom 0 entries → .ok s ∈ itemsFrom 0 entries →
          r.species = s.species) ∧
      ∀ t : Trajectory σ, loadUsing decompress (.ofBytes file) = .ok t → ∃ segments : List Segment,
        itemsFrom 0 entries = segments.map .ok ∧
        t.frames = segments.flatMap Segment.frames ∧
        t.species = segments.head?.map Segment.species := by
  have hload : loadUsing decompress (.ofBytes (header ++ entries.flatMap (Entry.bytes compress))) =
      assemble ({} : Trajectory σ) (itemsFrom 0 entries) := by
    rw [loadUsing, items_ofBytes hlz hfits]
    rfl
  refine ⟨_, _, writeUsing_eq hfits, start_ofBytes compress decompress entries,
    Reader.nth_before hlz hfits 0, (map_unplaced_itemsFrom_filter 0 0 entries).symm, ?_, ?_⟩
  · rw [hload]
    exact exists_assemble_iff
  · intro t ht
    rw [hload] at ht
    obtain ⟨segments, hitems, hmade⟩ := madeOf_of_assemble (Trajectory.madeOf_nil []) ht
    exact ⟨segments, hitems, hmade.frames_eq, hmade.species_eq⟩

/-- An archive of five chunks, two of them of another tag. The fourth holds no segment, and what
follows it is not read. -/
theorem reads_back_of_five :
    ∃ (note sound broken : Entry) (file : Bytes) (r : Reader), note.isSegment = false ∧
      Segment.decode sound.payload = .ok ⟨1, [7], [[.origin]]⟩ ∧ broken.payload = [1] ∧
      writeUsing Lz4.compress [note, sound, note, broken, sound] = .ok file ∧
      Reader.start (.ofBytes file) = .ok r ∧ r.nth 0 = some (.ok ⟨1, [7], [[.origin]]⟩) ∧
      r.nth 1 = some (.error (.codec 3 (.truncatedHeader 1))) ∧ r.nth 2 = none ∧ r.nth 9 = none ∧
      ∀ t : Trajectory Unit, load (.ofBytes file) ≠ .ok t := by
  let note : Entry := ⟨[0x4e, 0x4f, 0x54, 0x45], [0x68, 0x69], rfl⟩
  let sound : Entry := ⟨segmentTag, Segment.encode 1 [7] [[.origin]], rfl⟩
  let broken : Entry := ⟨segmentTag, [1], rfl⟩
  have hfits : ∀ e ∈ [note, sound, note, broken, sound], Chunk.Fits Lz4.compress e.payload := by
    intro e he
    simp only [List.mem_cons, List.not_mem_nil, or_false] at he
    rcases he with rfl | rfl | rfl | rfl | rfl <;> exact ⟨by decide, by decide⟩
  obtain ⟨file, r, hfile, hstart, hnth, -, hload, -⟩ :=
    reads_back (σ := Unit) compresses_lz4 [note, sound, note, broken, sound] hfits
  have hitems : itemsFrom 0 [note, sound, note, broken, sound] =
      [.ok ⟨1, [7], [[.origin]]⟩, .error (.codec 3 (.truncatedHeader 1))] := rfl
  rw [hitems] at hnth hload
  refine ⟨note, sound, broken, file, r, rfl, rfl, rfl, hfile, hstart, hnth 0, hnth 1, hnth 2,
    hnth 9, fun t ht => ?_⟩
  obtain ⟨s, hs⟩ := (hload.mp ⟨t, ht⟩).1 (.error (.codec 3 (.truncatedHeader 1))) (by simp)
  cases hs

/-! ### Archives that were written segment by segment -/

section Segments

variable {compress : Bytes → Bytes}

/-- What the chunk of a segment holds. -/
def entryOf (s : Segment) : Entry := ⟨segmentTag, Segment.encode s.id s.species s.frames, rfl⟩

/-- The bytes that a segment has in an archive. -/
def chunkOf (compress : Bytes → Bytes) (s : Segment) : Bytes :=
  Chunk.bytes compress segmentTag (Segment.encode s.id s.species s.frames)

/-- **The segments that an archive can hold**: they have a buffer, and it fits a chunk. -/
structure Holds (compress : Bytes → Bytes) (s : Segment) : Prop where
  /-- The segment has a buffer. -/
  wellFormed : s.WellFormed
  /-- The buffer fits a chunk. -/
  fits : Chunk.Fits compress (Segment.encode s.id s.species s.frames)

theorem itemsFrom_map_entryOf {segments : List Segment} (h : ∀ s ∈ segments, s.WellFormed)
    (place : Nat) : itemsFrom place (segments.map entryOf) = segments.map .ok := by
  induction segments generalizing place with
  | nil => rfl
  | cons s segments ih =>
    obtain ⟨hs, hsegments⟩ := List.forall_mem_cons.mp h
    rw [List.map_cons, itemsFrom_cons_ok (e := entryOf s) rfl (Segment.decode_encode hs),
      ih hsegments, List.map_cons]

/-- **An archive reads back**: its items are the segments that were written, without an error. -/
theorem items_chunks (hlz : Compresses compress decompress) {segments : List Segment}
    (h : ∀ s ∈ segments, Holds compress s) :
    itemsUsing decompress (.ofBytes (header ++ segments.flatMap (chunkOf compress))) =
      .ok (segments.map .ok) := by
  have hbytes : segments.flatMap (chunkOf compress) =
      (segments.map entryOf).flatMap (Entry.bytes compress) := by
    rw [List.flatMap_map]
    rfl
  have hfits : ∀ e ∈ segments.map entryOf, Chunk.Fits compress e.payload := by
    intro e he
    obtain ⟨s, hs, rfl⟩ := List.mem_map.mp he
    exact (h s hs).fits
  rw [hbytes, items_ofBytes hlz hfits, itemsFrom_map_entryOf fun s hs => (h s hs).wellFormed]

/-- **An archive makes the trajectory that its segments made.** -/
theorem load_chunks (hlz : Compresses compress decompress) {t : Trajectory σ}
    {segments : List Segment} (ht : t.MadeOf segments) (h : ∀ s ∈ segments, Holds compress s) :
    ∃ u : Trajectory τ,
      loadUsing decompress (.ofBytes (header ++ segments.flatMap (chunkOf compress))) = .ok u ∧
        u.MadeOf segments := by
  have ht' : t.MadeOf ([] ++ segments) := ht
  obtain ⟨u, hu, hmade⟩ := assemble_of_madeOf ht' (Trajectory.madeOf_nil (σ := τ) [])
  refine ⟨u, ?_, hmade⟩
  rw [load_of_items (items_chunks hlz h)]
  exact hu

end Segments

end Archive

end Deposition
