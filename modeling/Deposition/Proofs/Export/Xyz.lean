import Deposition.Proofs.Archive.Mirror
import Deposition.Proofs.Export.Blocks
import Deposition.Proofs.Session.Following
import Mathlib.Data.List.TakeWhile

/-!
# The exported text follows the trajectory

An export hears of each segment that the session has accepted, writes the blocks of its frames and
goes on counting. So its text has one block for each frame of the trajectory, in order
(`Deposition.Session.xyz_follows`); and as each segment is flushed on its own, a writer that fails
spoils nothing but the segment that it fails in.

Nothing is assumed of the writer. Before each call it can have become anything, except that what was
written stays written (`Deposition.Medium.Mood`): there may be less room, or more, and it may refuse
to be flushed at one time and not at another. From the call on in which it fails the export is
stopped, and whatever becomes of the writer later makes no difference.
-/

namespace Deposition

/-! ### The writer -/

namespace Medium

/-- **What a medium is like** when something is about to be written to it. -/
structure Mood where
  /-- How many bytes fit; without a limit if there is none. -/
  room : Option Nat := none
  /-- Whether flushing fails. -/
  refusesFlush : Bool := false

/-- What is to be written does not fit. -/
def Mood.Lacks (mood : Mood) (bytes : Bytes) : Prop :=
  ∃ room, mood.room = some room ∧ room < bytes.length

/-- **A write fails**: there is no room for it, or the medium refuses to be flushed. -/
def Mood.Fails (mood : Mood) (bytes : Bytes) : Prop :=
  mood.Lacks bytes ∨ mood.refusesFlush = true

/-- The medium as it has become. What was written to it is still there. -/
def inMood (m : Medium) (mood : Mood) : Medium :=
  { m with room := mood.room, refusesFlush := mood.refusesFlush }

variable {mood : Mood} {bytes : Bytes}

/-- What fits is written. -/
theorem write_of_fits (m : Medium) (h : ¬mood.Lacks bytes) :
    ∃ m', (m.inMood mood).write bytes = (m', none) ∧ m'.written = m.written ++ bytes ∧
      m'.refusesFlush = mood.refusesFlush := by
  cases hlimit : mood.room with
  | none => exact ⟨_, by rw [write, inMood, hlimit], rfl, rfl⟩
  | some room =>
    have hle : bytes.length ≤ room := not_lt.mp fun hlt => h ⟨room, hlimit, hlt⟩
    refine ⟨{ m.inMood mood with written := m.written ++ bytes
                                 room := some (room - bytes.length) }, ?_, rfl, rfl⟩
    simp [write, inMood, hlimit, hle]

/-- Of what does not fit a part is written. -/
theorem write_of_lacks (m : Medium) (h : mood.Lacks bytes) :
    ∃ m' error part, (m.inMood mood).write bytes = (m', some error) ∧ part <+: bytes ∧
      m'.written = m.written ++ part := by
  obtain ⟨room, hlimit, hlt⟩ := h
  refine ⟨{ m.inMood mood with written := m.written ++ bytes.take room, room := some 0 },
    .device "disk full", bytes.take room, ?_, List.take_prefix _ _, rfl⟩
  simp [write, inMood, hlimit, not_le.mpr hlt]

/-- A write that does not fail writes everything. -/
theorem writeThrough_of_not_fails (m : Medium) (h : ¬mood.Fails bytes) :
    ∃ m', (m.inMood mood).writeThrough bytes = (m', none) ∧
      m'.written = m.written ++ bytes := by
  obtain ⟨hlacks, hflush⟩ := not_or.mp h
  obtain ⟨m', hwrite, hwritten, hrefuses⟩ := write_of_fits m hlacks
  rw [← hrefuses] at hflush
  refine ⟨{ m' with flushes := m'.flushes + 1 }, ?_, hwritten⟩
  rw [writeThrough, hwrite]
  exact if_neg hflush

/-- **A write that fails writes a part**, and leaves what was there before. -/
theorem writeThrough_of_fails (m : Medium) (h : mood.Fails bytes) :
    ∃ m' error part, (m.inMood mood).writeThrough bytes = (m', some error) ∧ part <+: bytes ∧
      m'.written = m.written ++ part := by
  by_cases hlacks : mood.Lacks bytes
  · obtain ⟨m', error, part, hwrite, hpart, hwritten⟩ := write_of_lacks m hlacks
    refine ⟨m', error, part, ?_, hpart, hwritten⟩
    rw [writeThrough, hwrite]
  · -- everything fits, so that it is the flush that fails
    obtain ⟨m', hwrite, hwritten, hrefuses⟩ := write_of_fits m hlacks
    have hflush : m'.refusesFlush = true := hrefuses.trans (h.resolve_left hlacks)
    refine ⟨m', .device "flush failed", bytes, ?_, List.prefix_rfl, hwritten⟩
    rw [writeThrough, hwrite]
    exact if_pos hflush

end Medium

/-! ### The export -/

namespace XyzExport

open Medium (Mood)
open Xyz (contents segmentBlocks pieces)

/-- The export hears something while its medium is like this. -/
def hearIn (x : XyzExport) (mood : Mood) (call : SinkCall) : XyzExport :=
  ({ x with medium := x.medium.inMood mood }.hear call).1

/-- The export hears several things, and its medium is like something else at each of them. -/
def hearAll (moods : Nat → Mood) (x : XyzExport) : List SinkCall → XyzExport
  | [] => x
  | call :: calls => hearAll (fun k => moods (k + 1)) (x.hearIn (moods 0) call) calls

variable {x : XyzExport} {mood : Mood} {s : Segment} {segments : List Segment}

/-! #### One call -/

/-- **If the writer does not fail, the blocks of the segment are written**, and counted. -/
theorem hearIn_of_not_fails (hlive : x.live = true)
    (h : ¬mood.Fails (contents (segmentBlocks x.frames s))) :
    (x.hearIn mood s.call).live = true ∧
      (x.hearIn mood s.call).frames = x.frames + s.frames.length ∧
      (x.hearIn mood s.call).medium.written =
        x.medium.written ++ contents (segmentBlocks x.frames s) := by
  obtain ⟨m, hwrite, hwritten⟩ := Medium.writeThrough_of_not_fails x.medium h
  have hhear : x.hearIn mood s.call =
      { x with medium := m, frames := x.frames + s.frames.length } := by
    simp [hearIn, hear, Segment.call, hlive, Xyz.segmentBytes_eq, hwrite]
  rw [hhear]
  exact ⟨hlive, rfl, hwritten⟩

/-- **If it fails, the export is stopped** with a part of them written. -/
theorem hearIn_of_fails (hlive : x.live = true)
    (h : mood.Fails (contents (segmentBlocks x.frames s))) :
    (x.hearIn mood s.call).live = false ∧ ∃ part,
      part <+: contents (segmentBlocks x.frames s) ∧
      (x.hearIn mood s.call).medium.written = x.medium.written ++ part := by
  obtain ⟨m, error, part, hwrite, hpart, hwritten⟩ := Medium.writeThrough_of_fails x.medium h
  have hhear : x.hearIn mood s.call = { x with medium := m, live := false } := by
    simp [hearIn, hear, Segment.call, hlive, Xyz.segmentBytes_eq, hwrite]
  rw [hhear]
  exact ⟨rfl, part, hpart, hwritten⟩

/-- **An export that is stopped writes nothing.** -/
theorem hearIn_of_stopped (h : x.live = false) (call : SinkCall) :
    (x.hearIn mood call).live = false ∧
      (x.hearIn mood call).medium.written = x.medium.written := by
  cases call <;> simp [hearIn, hear, h, Medium.inMood]

/-- Nor does one that is released. -/
theorem written_hearIn_released : (x.hearIn mood .released).medium.written = x.medium.written := by
  cases hlive : x.live with
  | false => exact (hearIn_of_stopped hlive .released).2
  | true =>
    cases hflush : mood.refusesFlush <;>
      simp [hearIn, hear, hlive, Medium.flush, Medium.inMood, hflush]

/-! #### Several calls -/

variable (moods : Nat → Mood)

theorem written_hearAll_of_stopped (h : x.live = false) (calls : List SinkCall) :
    (x.hearAll moods calls).medium.written = x.medium.written := by
  induction calls generalizing x moods with
  | nil => rfl
  | cons call calls ih =>
    obtain ⟨hlive, hwritten⟩ := hearIn_of_stopped h call
    rw [hearAll, ih _ hlive, hwritten]

/-- A release at the end makes no difference to what is written. -/
theorem written_hearAll_released (calls : List SinkCall) :
    (x.hearAll moods (calls ++ [.released])).medium.written =
      (x.hearAll moods calls).medium.written := by
  induction calls generalizing x moods with
  | nil => exact written_hearIn_released
  | cons call calls ih => exact ih _

/-- **As long as the writer does not fail**, every segment is written. -/
theorem written_hearAll (hlive : x.live = true)
    (h : ∀ k piece, (pieces x.frames segments)[k]? = some piece →
      ¬(moods k).Fails (contents piece)) :
    (x.hearAll moods (segments.map Segment.call)).medium.written =
        x.medium.written ++ contents (pieces x.frames segments).flatten := by
  induction segments generalizing x moods with
  | nil => exact (List.append_nil _).symm
  | cons s segments ih =>
    obtain ⟨hlive', hframes, hwritten⟩ := hearIn_of_not_fails hlive (h 0 _ rfl)
    have hrest := ih (fun k => moods (k + 1)) hlive' fun k piece hpiece =>
      h (k + 1) piece (by rwa [hframes] at hpiece)
    rw [List.map_cons, hearAll, hrest, hwritten, hframes, pieces, List.flatten_cons,
      Xyz.contents_append, List.append_assoc]

/-- **If the writer fails**, what was written of earlier segments is there, and then a part of the
segment in which it failed, and nothing else is ever written. -/
theorem written_hearAll_of_fails {k : Nat} {piece : List (List String)} (hlive : x.live = true)
    (hpiece : (pieces x.frames segments)[k]? = some piece)
    (hfails : (moods k).Fails (contents piece))
    (hbefore : ∀ j < k, ∀ earlier, (pieces x.frames segments)[j]? = some earlier →
      ¬(moods j).Fails (contents earlier)) (more : List SinkCall) :
    ∃ part, part <+: contents piece ∧
      (x.hearAll moods (segments.map Segment.call ++ more)).medium.written =
        x.medium.written ++ contents ((pieces x.frames segments).take k).flatten ++ part := by
  induction segments generalizing x moods k with
  | nil => cases hpiece
  | cons s segments ih =>
    rw [List.map_cons, List.cons_append, hearAll]
    cases k with
    | zero =>
      obtain rfl : segmentBlocks x.frames s = piece := Option.some.inj hpiece
      obtain ⟨hstopped, part, hpart, hwritten⟩ := hearIn_of_fails hlive hfails
      refine ⟨part, hpart, ?_⟩
      rw [written_hearAll_of_stopped _ hstopped, hwritten, List.take_zero, List.flatten_nil,
        Xyz.contents_nil, List.append_nil]
    | succ k =>
      obtain ⟨hlive', hframes, hwritten⟩ :=
        hearIn_of_not_fails hlive (hbefore 0 (Nat.succ_pos k) _ rfl)
      obtain ⟨part, hpart, hrest⟩ := ih (fun k => moods (k + 1)) hlive'
        (by rw [hframes]; exact hpiece) hfails fun j hj earlier hearlier =>
          hbefore (j + 1) (Nat.succ_lt_succ hj) earlier (by rwa [hframes] at hearlier)
      refine ⟨part, hpart, ?_⟩
      rw [hrest, hwritten, hframes, pieces, List.take_succ_cons, List.flatten_cons,
        Xyz.contents_append]
      simp only [List.append_assoc]

end XyzExport

/-! ### What a sink is told -/

namespace Trajectory

variable {σ : Type}

/-- **What is new to a trajectory** are the segments that it takes. -/
theorem exists_allNews {t : Trajectory σ} {segments : List Segment} (h : t.MadeOf segments)
    {ops : List (Operation σ)} (hops : ∀ op ∈ ops, op.ends = false) :
    ∃ more, t.allNews ops = more.map Segment.call ∧ (∀ s ∈ more, .append s ∈ ops) ∧
      (t.run ops).1.MadeOf (segments ++ more) := by
  induction ops generalizing t segments with
  | nil =>
    refine ⟨[], rfl, fun s hs => absurd hs List.not_mem_nil, ?_⟩
    rw [List.append_nil]
    exact h
  | cons op ops ih =>
    obtain ⟨hop, hrest⟩ := List.forall_mem_cons.mp hops
    have hmade := h.perform op
    cases op with
    | append s =>
      cases hm : t.mismatch? s with
      | some error =>
        rw [taking, append_eq_error hm] at hmade
        obtain ⟨more, hnews, hmem, hrun⟩ := ih hmade hrest
        refine ⟨more, ?_, fun r hr => List.mem_cons_of_mem _ (hmem r hr), hrun⟩
        rw [allNews, news_append_error hm, hnews]
        rfl
      | none =>
        rw [taking, append_eq hm] at hmade
        obtain ⟨more, hnews, hmem, hrun⟩ := ih hmade hrest
        refine ⟨s :: more, ?_, fun r hr => ?_, ?_⟩
        · rw [allNews, news_append_ok hm, hnews]
          rfl
        · rcases List.mem_cons.mp hr with rfl | hr
          · exact List.mem_cons_self
          · exact List.mem_cons_of_mem _ (hmem r hr)
        · have happend : segments ++ [s] ++ more = segments ++ s :: more := by simp
          rw [← happend]
          exact hrun
    | register sink =>
      obtain ⟨more, hnews, hmem, hrun⟩ := ih hmade hrest
      exact ⟨more, hnews, fun r hr => List.mem_cons_of_mem _ (hmem r hr), hrun⟩
    | release => cases hop
    | clear => cases hop

end Trajectory

namespace Session

variable {σ : Type} {s : Session σ} {deeds : List (Deed σ)}

/-- **What reaches the trajectory** has come in a buffer, if it is a segment, and is registered with
the session, if it is a sink. -/
theorem of_operation?_eq_some {deed : Deed σ} {op : Trajectory.Operation σ}
    (h : s.operation? deed = some op) :
    (∀ segment, op = .append segment → ∃ buffer, deed = .event (.binary buffer) ∧
      Segment.decode buffer = .ok segment) ∧ ∀ x, op = .register x → deed = .register x := by
  unfold operation? at h
  split at h
  · next c =>
    rw [Option.ite_none_right_eq_some] at h
    obtain ⟨-, h⟩ := h
    cases h
    constructor <;> rintro _ ⟨⟩
  · next sink =>
    cases h
    constructor
    · rintro _ ⟨⟩
    · rintro _ ⟨⟩
      rfl
  · cases h
    constructor <;> rintro _ ⟨⟩
  · next buffer =>
    cases hd : Segment.decode buffer with
    | error error =>
      rw [hd] at h
      cases h
    | ok segment =>
      rw [hd] at h
      dsimp only at h
      rw [Option.ite_none_right_eq_some] at h
      obtain ⟨-, h⟩ := h
      cases h
      constructor
      · rintro _ ⟨⟩
        exact ⟨buffer, rfl, hd⟩
      · rintro _ ⟨⟩
  · cases h
  · cases h

/-- Each operation of a run is what a deed is to the trajectory. -/
theorem exists_of_mem_operations {op : Trajectory.Operation σ} (h : op ∈ s.operations deeds) :
    ∃ deed ∈ deeds, ∃ u : Session σ, u.operation? deed = some op := by
  induction deeds generalizing s with
  | nil => cases h
  | cons deed deeds ih =>
    rcases List.mem_append.mp h with h | h
    · exact ⟨deed, List.mem_cons_self, s, Option.mem_toList.mp h⟩
    · obtain ⟨deed', hmem, u, hu⟩ := ih h
      exact ⟨deed', List.mem_cons_of_mem _ hmem, u, hu⟩

/-- A segment that reaches the trajectory was read from a buffer that has come. -/
theorem exists_buffer_of_mem_operations {segment : Segment}
    (h : .append segment ∈ s.operations deeds) :
    ∃ buffer, .event (.binary buffer) ∈ deeds ∧ Segment.decode buffer = .ok segment := by
  obtain ⟨deed, hdeed, u, hu⟩ := exists_of_mem_operations h
  obtain ⟨buffer, rfl, hdecode⟩ := (of_operation?_eq_some hu).1 segment rfl
  exact ⟨buffer, hdeed, hdecode⟩

/-- A sink that reaches the trajectory was registered. -/
theorem mem_of_register_mem_operations {x : σ} (h : .register x ∈ s.operations deeds) :
    .register x ∈ deeds := by
  obtain ⟨deed, hdeed, u, hu⟩ := exists_of_mem_operations h
  rwa [(of_operation?_eq_some hu).2 x rfl] at hdeed

variable [DecidableEq σ] {s₀ t : Session σ} {c : Configuration} {effects brought : Effects σ}
  {x : σ}

/-- **What a sink is told that registers right after a submission**: the segments that the
trajectory is made of as long as it is not released, each read from a buffer, and that it is
released, if it is. -/
theorem exists_told (hsubmit : s₀.submit c = .ok (s, effects)) (hregister : .register x ∉ deeds)
    (hrun : (s.registerSink x).run deeds = (t, brought)) :
    ∃ segments, callsTo x brought.notices = segments.map Segment.call ++
        (if ⟨x, .released⟩ ∈ brought.notices then [.released] else []) ∧
      (∀ segment ∈ segments, ∃ buffer, .event (.binary buffer) ∈ deeds ∧
        Segment.decode buffer = .ok segment) ∧
      (⟨x, .released⟩ ∉ brought.notices → t.trajectory.MadeOf segments) := by
  obtain ⟨ops, hops⟩ : ∃ ops, ops = (s.registerSink x).operations deeds := ⟨_, rfl⟩
  have hrunOps : (s.registerSink x).trajectory.run ops = (t.trajectory, brought.notices) := by
    rw [hops, run_operations, hrun]
  -- a submission leaves an empty trajectory, in which the sink is the only one
  have hstart : (s.registerSink x).trajectory = ({} : Trajectory σ).register x := by
    obtain ⟨rfl, -⟩ := submit_eq_ok hsubmit
    rfl
  rw [hstart] at hrunOps
  have hcount : (({} : Trajectory σ).register x).sinks.count x = 1 := Trajectory.count_register rfl
  have honce : .register x ∉ ops := fun hmem =>
    hregister (mem_of_register_mem_operations (hops ▸ hmem))
  have hcalls := Trajectory.callsTo_run_of_count_one hcount honce
  have hmade : (({} : Trajectory σ).register x).MadeOf [] := Trajectory.madeOf_nil [x]
  have hgoing : ∀ op ∈ ops.takeWhile fun op => !op.ends, op.ends = false := fun op hop => by
    simpa using List.mem_takeWhile_imp hop
  obtain ⟨segments, hnews, hmem, hmadeOf⟩ := Trajectory.exists_allNews hmade hgoing
  rw [hrunOps, hnews] at hcalls
  -- the segments are what it is told before the end, so that only the end can be the release
  have hreleased :
      ⟨x, .released⟩ ∈ brought.notices ↔ ops.any Trajectory.Operation.ends = true := by
    have hsegments : .released ∉ segments.map Segment.call := by
      intro h
      obtain ⟨segment, -, hcall⟩ := List.mem_map.mp h
      cases hcall
    rw [← mem_callsTo, hcalls, List.mem_append, or_iff_right hsegments]
    cases ops.any Trajectory.Operation.ends <;> simp
  refine ⟨segments, ?_, fun segment hsegment => ?_, fun hnot => ?_⟩
  · simp only [hreleased]
    exact hcalls
  · have hop := (List.takeWhile_sublist _).subset (hmem segment hsegment)
    exact exists_buffer_of_mem_operations (hops ▸ hop)
  · have hall : (ops.takeWhile fun op => !op.ends) = ops := by
      rw [hreleased, Bool.not_eq_true, List.any_eq_false] at hnot
      exact List.takeWhile_eq_self_iff.mpr fun op hop => by simpa using hnot op hop
    rw [hall, hrunOps, List.nil_append] at hmadeOf
    exact hmadeOf

/-- **The export follows the trajectory.** Let an export be registered right after a submission that
was accepted, and let anything happen from then on, except that it registers again. It is told of
the segments that the session has accepted, which are those that the trajectory is made of as long
as the export is not released. To each segment belong blocks, numbered throughout as the frames of
the segments; as long as the writer does not fail, the text is these blocks and nothing else; and if
it fails, whatever was written for earlier segments is there, then a part of what was to be written
for this one, and nothing for any segment after it. -/
theorem xyz_follows (hsubmit : s₀.submit c = .ok (s, effects)) (hregister : .register x ∉ deeds)
    (hrun : (s.registerSink x).run deeds = (t, brought)) (medium : Medium) :
    ∃ (segments : List Segment) (pieces : List (List (List String))),
      callsTo x brought.notices = segments.map Segment.call ++
        (if ⟨x, .released⟩ ∈ brought.notices then [.released] else []) ∧
      (∀ segment ∈ segments, ∃ buffer, .event (.binary buffer) ∈ deeds ∧
        Segment.decode buffer = .ok segment) ∧
      (⟨x, .released⟩ ∉ brought.notices →
        t.trajectory.frames = (Xyz.carried segments).map Prod.snd ∧
          ∀ segment ∈ segments, t.trajectory.species = some segment.species) ∧
      pieces.length = segments.length ∧
      (∀ k, Xyz.Numbered (segments.take k) (pieces.take k).flatten) ∧
      ∀ moods : Nat → Medium.Mood,
        let y := ({ medium } : XyzExport).hearAll moods (callsTo x brought.notices)
        ((∀ k piece, pieces[k]? = some piece → ¬(moods k).Fails (Xyz.contents piece)) →
          y.medium.written = medium.written ++ Xyz.contents pieces.flatten) ∧
        ∀ k piece, pieces[k]? = some piece → (moods k).Fails (Xyz.contents piece) →
          (∀ j < k, ∀ earlier, pieces[j]? = some earlier →
            ¬(moods j).Fails (Xyz.contents earlier)) →
          ∃ part, part <+: Xyz.contents piece ∧
            y.medium.written =
              medium.written ++ Xyz.contents (pieces.take k).flatten ++ part := by
  obtain ⟨segments, hcalls, hbuffers, hmade⟩ := exists_told hsubmit hregister hrun
  have hread : ∀ segment ∈ segments, segment.WellFormed := fun segment hsegment => by
    obtain ⟨buffer, -, hdecode⟩ := hbuffers segment hsegment
    exact Segment.wellFormed_of_decode hdecode
  refine ⟨segments, Xyz.pieces 0 segments, hcalls, hbuffers, fun hnot => ?_,
    Xyz.length_pieces 0 segments, fun k => ?_, ?_⟩
  · have hmadeOf := hmade hnot
    refine ⟨?_, hmadeOf.alike⟩
    rw [hmadeOf.frames_eq, Xyz.carried, List.map_flatMap]
    simp
  · rw [Xyz.take_pieces]
    exact Xyz.numbered_pieces fun segment hsegment => hread segment (List.mem_of_mem_take hsegment)
  · intro moods
    rw [hcalls]
    refine ⟨fun hfits => ?_, fun k piece hpiece hfails hbefore => ?_⟩
    · have hwritten := XyzExport.written_hearAll (x := { medium }) moods rfl hfits
      split
      · rw [XyzExport.written_hearAll_released, hwritten]
      · rw [List.append_nil, hwritten]
    · exact XyzExport.written_hearAll_of_fails (x := { medium }) moods rfl hpiece hfails hbefore _

/-- Two segments with three frames of two atoms: the text of their blocks, if there is room for it,
and that of the first two and a part of the third, if there is not. -/
theorem xyz_follows_of_pair :
    ∃ (s t : Session Unit) (effects brought : Effects Unit) (deeds : List (Deed Unit))
      (first second : String),
      submit { connected := true } ⟨[⟨"ETH", 1⟩], []⟩ = .ok (s, effects) ∧
      (s.registerSink ()).run deeds = (t, brought) ∧
      t.trajectory.frames = ServedJob.early.frames ++ ServedJob.late.frames ∧
      first =
        "2\nframe 0 segment 1\nO 0.0000 0.0000 0.0000\nH 100.0000 0.0000 0.0000\n" ++
        "2\nframe 1 segment 1\nO 100.0000 0.0000 0.0000\nH 0.0000 0.0000 0.0000\n" ∧
      second =
        "2\nframe 2 segment 2\nO 100.0000 0.0000 0.0000\nH 100.0000 0.0000 0.0000\n" ∧
      (({ medium := {} } : XyzExport).hearAll (fun _ => {})
        (callsTo () brought.notices)).medium.written = Utf8.encode first ++ Utf8.encode second ∧
      ∃ part, part <+: Utf8.encode second ∧
        (({ medium := {} } : XyzExport).hearAll (fun k => if k = 1 then { room := some 4 } else {})
          (callsTo () brought.notices)).medium.written = Utf8.encode first ++ part := by
  obtain ⟨s, t, effects, brought, deeds, hs, hregister, hrun, -, hnotices, -, hframes⟩ :=
    exists_run_of_pair
  obtain ⟨segments, pieces, hcalls, hbuffers, -, hlength, hnumbered, hwriter⟩ :=
    xyz_follows hs hregister hrun {}
  obtain rfl : segments = [ServedJob.early, ServedJob.late] := by
    rw [hnotices, if_neg (by simp [Segment.call]), List.append_nil] at hcalls
    exact Segment.call_injective.list_map hcalls.symm
  obtain rfl := Xyz.eq_pieces_of_numbered (fun segment hsegment => by
    obtain ⟨buffer, -, hdecode⟩ := hbuffers segment hsegment
    exact Segment.wellFormed_of_decode hdecode) hlength hnumbered
  have hfirst : Xyz.contents (Xyz.segmentBlocks 0 ServedJob.early) = Utf8.encode
      ("2\nframe 0 segment 1\nO 0.0000 0.0000 0.0000\nH 100.0000 0.0000 0.0000\n" ++
        "2\nframe 1 segment 1\nO 100.0000 0.0000 0.0000\nH 0.0000 0.0000 0.0000\n") :=
    congrArg Utf8.encode (by decide +kernel)
  have hsecond : Xyz.contents (Xyz.segmentBlocks 2 ServedJob.late) = Utf8.encode
      "2\nframe 2 segment 2\nO 100.0000 0.0000 0.0000\nH 100.0000 0.0000 0.0000\n" :=
    congrArg Utf8.encode (by decide +kernel)
  have hpieces : Xyz.pieces 0 [ServedJob.early, ServedJob.late] =
      [Xyz.segmentBlocks 0 ServedJob.early, Xyz.segmentBlocks 2 ServedJob.late] := rfl
  rw [hpieces] at hwriter
  refine ⟨s, t, effects, brought, deeds, _, _, hs, hrun, hframes, rfl, rfl, ?_, ?_⟩
  · rw [← hfirst, ← hsecond, ← Xyz.contents_append]
    refine (hwriter fun _ => {}).1 ?_
    rintro k piece - (⟨room, hroom, -⟩ | hflush)
    · cases hroom
    · cases hflush
  · have hbefore (j : Nat) (hj : j < 1) (piece : List (List String)) :
        ¬(if j = 1 then { room := some 4 } else {} : Medium.Mood).Fails (Xyz.contents piece) := by
      rw [if_neg (Nat.ne_of_lt hj)]
      rintro (⟨room, hroom, -⟩ | hflush)
      · cases hroom
      · cases hflush
    obtain ⟨part, hpart, hwritten⟩ :=
      (hwriter fun k => if k = 1 then { room := some 4 } else {}).2 1 _ rfl
        (.inl ⟨4, rfl, by rw [hsecond]; decide⟩) fun j hj piece _ => hbefore j hj piece
    exact ⟨part, hsecond ▸ hpart, hfirst ▸ hwritten⟩

end Session

end Deposition
