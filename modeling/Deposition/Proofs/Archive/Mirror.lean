import Deposition.Export.Archive
import Deposition.Proofs.Archive.Reading
import Deposition.Proofs.Session.Agreement
import Deposition.Proofs.Trajectory.Sinks

/-!
# The archive mirrors the trajectory

While a job runs, its frames are in two places: in the trajectory of the session, and in the
archive that follows it. They take different ways there. The trajectory has them from the buffers
of the server; the archive has them from what it is told as a sink, writes them out again,
compresses them, and is read back. That both say the same after every event is
`Deposition.Session.archive_mirrors`.

The two ways meet in a list of segments that neither of them keeps: the segments that the session
has accepted. The session's trajectory is made of them, and the archive has been told of them and
of nothing else (`Deposition.Session.Followed`); the archive holds their chunks
(`Deposition.ArchiveExport.Wrote`); and reading the chunks makes whatever trajectory the segments
made (`Deposition.Archive.load_chunks`). A segment that was accepted can always be written again,
because it came from a buffer (`Deposition.Segment.wellFormed_of_decode`); what can fail is that it
does not fit a chunk, and this is a hypothesis.

The archive's turn to follow ends when it is told that it is released, by the next submission or by
hand. As long as that has not happened, it is registered exactly once.
-/

namespace Deposition

/-! ### Writing -/

namespace Medium

/-- **A medium that never fails.** -/
structure Endless (m : Medium) : Prop where
  /-- Everything fits. -/
  room_eq : m.room = none
  /-- It can be flushed. -/
  refusesFlush_eq : m.refusesFlush = false

/-- Everything is written, and the medium goes on as before. -/
theorem Endless.writeThrough {m : Medium} (h : m.Endless) (bytes : Bytes) :
    ∃ m', m.writeThrough bytes = (m', none) ∧ m'.Endless ∧ m'.written = m.written ++ bytes := by
  refine ⟨{ m with written := m.written ++ bytes, flushes := m.flushes + 1 }, ?_, ?_, rfl⟩
  · simp [Medium.writeThrough, write, flush, h.room_eq, h.refusesFlush_eq]
  · exact ⟨h.room_eq, h.refusesFlush_eq⟩

end Medium

/-- What a sink is told of a segment. -/
def Segment.call (s : Segment) : SinkCall := .segment s.id s.species s.frames

theorem Segment.call_injective : Function.Injective Segment.call := by
  rintro ⟨id, species, frames⟩ ⟨id', species', frames'⟩ h
  obtain ⟨rfl, rfl, rfl⟩ := SinkCall.segment.inj h
  rfl

namespace ArchiveExport

variable {compress : Bytes → Bytes} {a : ArchiveExport} {segments : List Segment} {s : Segment}

/-- The archive after it has heard several things. -/
def hearAll (a : ArchiveExport) (calls : List SinkCall) : ArchiveExport :=
  calls.foldl (fun a call => (a.hear call).1) a

/-- **The archive has written these segments**, and still writes. -/
structure Wrote (compress : Bytes → Bytes) (segments : List Segment) (a : ArchiveExport) :
    Prop where
  /-- It has not stopped. -/
  live_eq : a.live = true
  /-- What it writes to does not fail. -/
  endless : a.medium.Endless
  /-- It compresses in this way. -/
  compress_eq : a.compress = compress
  /-- Behind its header are their chunks. -/
  written_eq : a.medium.written = Archive.header ++ segments.flatMap (Archive.chunkOf compress)

/-- An archive can be opened. -/
theorem exists_startUsing (compress : Bytes → Bytes) :
    ∃ a, startUsing compress {} = .ok a ∧ Wrote compress [] a :=
  ⟨_, rfl, rfl, ⟨rfl, rfl⟩, rfl, by simp⟩

/-- **A segment that an archive can hold is written.** -/
theorem Wrote.hear (h : a.Wrote compress segments) (hs : Archive.Holds compress s) :
    (a.hear s.call).1.Wrote compress (segments ++ [s]) := by
  obtain ⟨medium, hwrite, hendless, hwritten⟩ :=
    h.endless.writeThrough (Archive.chunkOf compress s)
  have hchunk : Archive.segmentChunkUsing a.compress s.id s.species s.frames =
      .ok (Archive.chunkOf compress s) := by
    rw [h.compress_eq]
    exact Chunk.encodeUsing_eq hs.fits
  have hhear : (a.hear s.call).1 = { a with medium, segments := a.segments + 1 } := by
    simp [ArchiveExport.hear, Segment.call, h.live_eq, write, hchunk, hwrite]
  rw [hhear]
  exact ⟨h.live_eq, hendless, h.compress_eq, by simp [hwritten, h.written_eq]⟩

/-- **Several segments are written in order.** -/
theorem Wrote.hearAll {more : List Segment} (h : a.Wrote compress segments)
    (hmore : ∀ s ∈ more, Archive.Holds compress s) :
    (a.hearAll (more.map Segment.call)).Wrote compress (segments ++ more) := by
  induction more generalizing a segments with
  | nil => simpa [ArchiveExport.hearAll] using h
  | cons s more ih =>
    obtain ⟨hs, hmore⟩ := List.forall_mem_cons.mp hmore
    have := ih (h.hear hs) hmore
    rwa [List.append_assoc, List.singleton_append] at this

end ArchiveExport

/-! ### Following -/

namespace Session

variable {σ : Type} [DecidableEq σ] {s s' : Session σ} {x : σ} {notices more : List (Notice σ)}
  {segments : List Segment} {deed : Deed σ} {commands : List Command}

/-- **A sink follows the trajectory**: it is registered once, and it has been told of the segments
that the trajectory is made of. -/
structure Followed (x : σ) (s : Session σ) (notices : List (Notice σ)) (segments : List Segment) :
    Prop where
  /-- It has been told of these segments and of nothing else. -/
  calls_eq : callsTo x notices = segments.map Segment.call
  /-- It is registered, and only once. -/
  count_eq : s.trajectory.sinks.count x = 1
  /-- The trajectory is made of these segments. -/
  madeOf : s.trajectory.MadeOf segments
  /-- Each of them has been read from a buffer. -/
  wellFormed : ∀ segment ∈ segments, segment.WellFormed

namespace Followed

/-- What leaves the trajectory as it is. -/
theorem congr (h : s.Followed x notices segments) (ht : s'.trajectory = s.trajectory) :
    s'.Followed x notices segments :=
  ⟨h.calls_eq, ht ▸ h.count_eq, ht ▸ h.madeOf, h.wellFormed⟩

/-- A sink that is released is told so. -/
theorem released_mem (h : s.Followed x notices segments) :
    ⟨x, .released⟩ ∈ s.trajectory.sinks.map fun sink => (⟨sink, .released⟩ : Notice σ) := by
  have hmem : x ∈ s.trajectory.sinks := List.count_pos_iff.mp (by rw [h.count_eq]; decide)
  exact List.mem_map.mpr ⟨x, hmem, rfl⟩

/-- **One event more**: the trajectory grows by a segment and the sink is told of it, or neither. -/
theorem handle (h : s.Followed x notices segments) (e : Event) :
    ∃ more, (s.handle e).1.Followed x (notices ++ (s.handle e).2.notices) (segments ++ more) := by
  rcases (turn_handle s e).trajectory_cases with
    ⟨ht, hnotices⟩ | ⟨buffer, segment, -, hd, hm, ht, hnotices⟩
  · rw [trajectory_noted] at ht
    refine ⟨[], ?_⟩
    rw [hnotices, List.append_nil, List.append_nil]
    exact h.congr ht
  · rw [trajectory_noted] at hm ht hnotices
    have hcalls : callsTo x (s.handle e).2.notices = [segment.call] := by
      rw [hnotices, announcements, callsTo_map, h.count_eq]
      rfl
    refine ⟨[segment], ?_, ht ▸ h.count_eq, ht ▸ h.madeOf.extend hm, fun r hr => ?_⟩
    · rw [callsTo_append, hcalls, h.calls_eq, List.map_append, List.map_singleton]
    · rcases List.mem_append.mp hr with hr | hr
      · exact h.wellFormed r hr
      · exact List.mem_singleton.mp hr ▸ Segment.wellFormed_of_decode hd

/-- **One deed more**, unless the sink is released by it or registers again. -/
theorem answer (h : s.Followed x notices segments) (hregister : deed ≠ .register x)
    (answer : s.Answer deed s' commands more) (hreleased : ⟨x, .released⟩ ∉ more) :
    ∃ appended, s'.Followed x (notices ++ more) (segments ++ appended) := by
  cases answer with
  | notSubmitted _ => exact ⟨[], by simpa using h⟩
  | submitted _ => exact absurd h.released_mem hreleased
  | notCancelled _ => exact ⟨[], by simpa using h⟩
  | cancelled _ =>
    have hstopped : Followed x { s.stopped with pending := true } notices segments := h.congr rfl
    exact ⟨[], by simpa using hstopped⟩
  | handled e => exact h.handle e
  | registered y =>
    have hy : y ≠ x := fun hy => hregister (by rw [hy])
    refine ⟨[], ?_⟩
    rw [List.append_nil, List.append_nil]
    exact ⟨h.calls_eq, by simp [registerSink, Trajectory.register, h.count_eq, hy],
      h.madeOf.withSinks _, h.wellFormed⟩
  | released => exact absurd h.released_mem hreleased

/-- As long as the sink is not released, no submission is accepted. -/
theorem submit_ne_ok (h : s.Followed x notices segments)
    (hreleased : ⟨x, .released⟩ ∉ (s.perform deed).2.notices) {c : Configuration}
    {step : Session σ × Effects σ} (hdeed : deed = .submit c) : s.submit c ≠ .ok step := by
  intro hs
  obtain ⟨s', effects⟩ := step
  rw [hdeed, perform_submit_ok hs, (submit_eq_ok hs).2.2] at hreleased
  exact hreleased h.released_mem

/-- A sink that is registered right after a submission follows from the start. -/
theorem of_submit {c : Configuration} {effects : Effects σ}
    (h : s.submit c = .ok (s', effects)) (x : σ) : (s'.registerSink x).Followed x [] [] := by
  obtain ⟨rfl, -⟩ := submit_eq_ok h
  exact ⟨rfl, by simp [registerSink, Trajectory.register, started], ⟨rfl, rfl, by simp⟩, by simp⟩

end Followed

/-- **The archive mirrors the trajectory.** Let a sink be registered right after a submission that
was accepted, and let anything happen from then on, except that the sink is released. An archive
that hears everything the sink is told can be read back after it, and what is read has the species
and the frames of the trajectory; so when the job is done, the last frame that is read has the
height map of the session. -/
theorem archive_mirrors {compress : Bytes → Bytes} {decompress : Bytes → Nat → Option Bytes}
    (hlz : Archive.Compresses compress decompress) {s₀ s t : Session σ} {c : Configuration}
    {effects brought : Effects σ} (hsubmit : s₀.submit c = .ok (s, effects))
    {deeds : List (Deed σ)} (hregister : .register x ∉ deeds)
    (hrun : (s.registerSink x).run deeds = (t, brought))
    (hreleased : ⟨x, .released⟩ ∉ brought.notices)
    (hfits : ∀ id species frames, ⟨x, .segment id species frames⟩ ∈ brought.notices →
      Chunk.Fits compress (Segment.encode id species frames)) :
    ∃ (a : ArchiveExport) (u : Trajectory σ), ArchiveExport.startUsing compress {} = .ok a ∧
      Archive.loadUsing decompress
        (.ofBytes (a.hearAll (callsTo x brought.notices)).medium.written) = .ok u ∧
      u.species = t.trajectory.species ∧ u.frames = t.trajectory.frames ∧
      (.finished ∈ brought.commands → ∀ bins,
        (u.lastFrame?.bind fun last => HeightMap.ofFrame last.species last.frame bins) =
          t.heightMap bins) := by
  -- the session's side: the segments that were accepted, and what the sink was told of them
  obtain ⟨segments, followed, coherent, closed⟩ : ∃ segments,
      t.Followed x brought.notices segments ∧ t.Coherent ∧ t.Closed brought.commands := by
    refine run_induction (P := fun u so => ⟨x, .released⟩ ∉ so.notices → ∃ segments,
      u.Followed x so.notices segments ∧ u.Coherent ∧ u.Closed so.commands) hrun ?_ ?_ hreleased
    · intro _
      have closed := Closed.of_submit hsubmit
      exact ⟨[], .of_submit hsubmit x, (Coherent.of_submit hsubmit).perform (.register x),
        closed.count_eq, closed.latest_lt, closed.complete_eq⟩
    · intro deed hdeed u so ih hnot
      rw [Effects.notices_followedBy, List.mem_append, not_or] at hnot
      obtain ⟨segments, followed, coherent, closed⟩ := ih hnot.1
      have hdeed' : deed ≠ .register x := fun h => hregister (h ▸ hdeed)
      obtain ⟨more, followed'⟩ := followed.answer hdeed' (answer_perform u deed) hnot.2
      exact ⟨segments ++ more, followed', coherent.perform deed,
        closed.answer coherent (fun _ _ => followed.submit_ne_ok hnot.2) (answer_perform u deed)⟩
  -- the archive's side: the same segments, written and read again
  obtain ⟨a, hstart, wrote⟩ := ArchiveExport.exists_startUsing compress
  have hholds : ∀ segment ∈ segments, Archive.Holds compress segment := fun segment hmem => by
    refine ⟨followed.wellFormed segment hmem, hfits _ _ _ (mem_callsTo.mp ?_)⟩
    rw [followed.calls_eq]
    exact List.mem_map.mpr ⟨segment, hmem, rfl⟩
  have hwritten := (wrote.hearAll hholds).written_eq
  rw [List.nil_append, ← followed.calls_eq] at hwritten
  obtain ⟨u, hload, hmade⟩ := Archive.load_chunks hlz followed.madeOf hholds (τ := σ)
  obtain ⟨hspecies, hframes⟩ := followed.madeOf.eq hmade
  refine ⟨a, u, hstart, hwritten ▸ hload, hspecies, hframes, fun hfinished bins => ?_⟩
  -- what the session analyses is the last frame of its trajectory
  have hanalysis := (coherent.of_analysisReady (closed.analysisReady_eq hfinished)).2
  have hlast : u.lastFrame? = t.trajectory.lastFrame? := by
    rw [Trajectory.lastFrame?, hspecies, hframes, Trajectory.lastFrame?]
  rw [heightMap, hanalysis, hlast]
  rfl

/-- A job of two segments that is followed until it is done: they are announced and arrive, the
first one twice. -/
theorem exists_run_of_pair :
    ∃ (s t : Session Unit) (effects brought : Effects Unit) (deeds : List (Deed Unit)),
      submit { connected := true } ⟨[⟨"ETH", 1⟩], []⟩ = .ok (s, effects) ∧
      .register () ∉ deeds ∧ (s.registerSink ()).run deeds = (t, brought) ∧
      .finished ∈ brought.commands ∧
      brought.notices = [⟨(), ServedJob.early.call⟩, ⟨(), ServedJob.late.call⟩] ∧
      t.trajectory.species = some [7, 0] ∧
      t.trajectory.frames = ServedJob.early.frames ++ ServedJob.late.frames := by
  obtain ⟨text, first, second, htext, -, hfirst, hsecond⟩ := ServedJob.exists_sent_of_pair
  obtain ⟨s, effects, hs⟩ : ∃ s effects,
      submit ({ connected := true } : Session Unit) ⟨[⟨"ETH", 1⟩], []⟩ = .ok (s, effects) :=
    ⟨_, _, rfl⟩
  let deeds : List (Deed Unit) :=
    [.event (.text text), .event (.binary first), .event (.binary first), .event (.binary second)]
  refine ⟨s, ((s.registerSink ()).run deeds).1, effects, ((s.registerSink ()).run deeds).2, deeds,
    hs, by simp [deeds], rfl, ?_⟩
  obtain ⟨rfl, -⟩ := submit_eq_ok hs
  simp only [deeds, run_cons, Session.perform, Session.handle, onText, onBinary, htext, hfirst,
    hsecond]
  exact ⟨List.mem_of_elem_eq_true rfl, rfl, rfl, rfl⟩

/-- The archive of a job of two segments, once the job is done. -/
theorem archive_mirrors_of_pair :
    ∃ (s t : Session Unit) (effects brought : Effects Unit) (deeds : List (Deed Unit))
      (a : ArchiveExport) (u : Trajectory Unit),
      submit { connected := true } ⟨[⟨"ETH", 1⟩], []⟩ = .ok (s, effects) ∧
      (s.registerSink ()).run deeds = (t, brought) ∧ .finished ∈ brought.commands ∧
      brought.notices = [⟨(), ServedJob.early.call⟩, ⟨(), ServedJob.late.call⟩] ∧
      ArchiveExport.startUsing Lz4.compress {} = .ok a ∧
      Archive.load (.ofBytes (a.hearAll (callsTo () brought.notices)).medium.written) = .ok u ∧
      u.species = some [7, 0] ∧ u.frames = ServedJob.early.frames ++ ServedJob.late.frames ∧
      ∀ bins, (u.lastFrame?.bind fun last => HeightMap.ofFrame last.species last.frame bins) =
        t.heightMap bins := by
  obtain ⟨s, t, effects, brought, deeds, hs, hregister, hrun, hfinished, hnotices, hspecies,
    hframes⟩ := exists_run_of_pair
  have hreleased : ⟨(), .released⟩ ∉ brought.notices := by
    simp [hnotices, Segment.call]
  have hfits (id : UInt32) (species : Bytes) (frames : List Frame)
      (h : ⟨(), .segment id species frames⟩ ∈ brought.notices) :
      Chunk.Fits Lz4.compress (Segment.encode id species frames) := by
    rw [hnotices] at h
    simp only [Segment.call, List.mem_cons, Notice.mk.injEq, SinkCall.segment.injEq, true_and,
      List.not_mem_nil, or_false] at h
    obtain ⟨rfl, rfl, rfl⟩ | ⟨rfl, rfl, rfl⟩ := h <;> exact ⟨by decide, by decide⟩
  obtain ⟨a, u, hstart, hload, hspecies', hframes', hmap⟩ := archive_mirrors
    Archive.compresses_lz4 hs hregister hrun hreleased hfits
  exact ⟨s, t, effects, brought, deeds, a, u, hs, hrun, hfinished, hnotices, hstart, hload,
    hspecies'.trans hspecies, hframes'.trans hframes, hmap hfinished⟩

end Session

end Deposition
