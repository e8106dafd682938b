import Deposition.Proofs.Segment.RoundTrip
import Deposition.Proofs.Session.Acceptance
import Deposition.Proofs.Session.Fate
import Mathlib.Data.List.Nodup

/-!
# The ids of a job

A job counts its segments from 1 and takes each when its turn has come, so the ids that it accepts
are 1, 2, 3 and so on (`Deposition.Session.Numbered`). That no segment is accepted twice hangs on
one thing: after a segment the next id is a greater one. It is, as long as there is one. The ids are
words, the last one is followed by itself, and a job may have as many segments as there are ids.

What happens then is a matter of two comparisons that mean different things. A segment is expected
if its id *is* the next one, and a job has caught up if the next id is *beyond* the latest. Nothing
is beyond the last id, so a job whose latest segment has the last id never catches up: it asks for
this segment again, accepts it again, and is never done (`Deposition.Session.Stuck`). Below the last
id each segment moves the job on, and the latest one ends it
(`Deposition.Session.accepted_once_iff`).
-/

namespace Deposition

namespace Session

variable {σ : Type} {s s' : Session σ} {buffer : Bytes} {segment : Segment} {deeds : List (Deed σ)}
  {deed : Deed σ} {commands : List Command} {n : ℕ}

/-! ### One segment -/

/-- **The next id after a segment** is the one after it, except after the last id. -/
theorem Awaits.toNat_next (awaits : s.Awaits buffer segment) :
    (s.onBinary buffer).1.flow.next.toNat = min (s.flow.next.toNat + 1) maxWord := by
  obtain ⟨more, -, look⟩ := awaits.advanced.look
  have hnext : (s.onBinary buffer).1.flow.next = s.flow.received.next := look.next_eq
  rw [hnext, Flow.toNat_next_received]

theorem Awaits.next_lt_iff (awaits : s.Awaits buffer segment) :
    s.flow.next < (s.onBinary buffer).1.flow.next ↔ s.flow.next.toNat < maxWord := by
  rw [UInt32.lt_iff_toNat_lt, awaits.toNat_next]
  omega

/-- A look at a complete job that is beyond its latest segment ends it. -/
theorem Look.of_beyond (look : s.Look s' commands) (hlt : s.flow.latest < s.flow.next)
    (hcomplete : s.flow.complete = true) :
    .finished ∈ commands ∧ s'.running = false ∧ s'.analysisReady = true := by
  cases look with
  | finished _ _ => exact ⟨by simp, rfl, rfl⟩
  | caughtUp _ hopen => exact absurd (hcomplete.symm.trans hopen) (by simp)
  | inFlight hle _ | requested hle _ => exact absurd hlt (UInt32.not_lt.mpr hle)

/-- A look at a job that has more segments, none of which is in flight, puts the next one in flight
and does not end it. -/
theorem Look.of_within (look : s.Look s' commands) (hle : s.flow.next ≤ s.flow.latest)
    (hwaiting : s.flow.waiting = false) :
    s' = { s with flow := { s.flow with waiting := true }, armed := true } ∧
      .finished ∉ commands := by
  cases look with
  | caughtUp hlt _ | finished hlt _ => exact absurd hlt (UInt32.not_lt.mpr hle)
  | inFlight _ hw => exact absurd (hw.symm.trans hwaiting) (by simp)
  | requested _ _ => exact ⟨rfl, by simp⟩

/-- **A job that is done** by a step. -/
structure Done (step : Session σ × Effects σ) : Prop where
  /-- This is what has to be told. -/
  finished_mem : .finished ∈ step.2.commands
  /-- The job does not run any more. -/
  running_eq : step.1.running = false
  /-- Its last frame is there to be analysed. -/
  analysisReady_eq : step.1.analysisReady = true

/-- **A job that is stuck** at a segment: a step accepts it, and it is awaited again. -/
structure Stuck (s : Session σ) (buffer : Bytes) (segment : Segment)
    (step : Session σ × Effects σ) : Prop where
  /-- The same segment comes next. -/
  next_eq : step.1.flow.next = s.flow.next
  /-- It is awaited, in the same buffer. -/
  awaits : step.1.Awaits buffer segment
  /-- The job is not done. -/
  not_finished : .finished ∉ step.2.commands

/-- **Below the last id the latest segment ends a complete job.** -/
theorem Awaits.done (awaits : s.Awaits buffer segment) (hlt : s.flow.next.toNat < maxWord)
    (hcomplete : s.flow.complete = true) (hlatest : segment.id = s.flow.latest) :
    Done (s.onBinary buffer) := by
  obtain ⟨more, hcommands, look⟩ := awaits.advanced.look
  -- the next segment is the one after the latest, so the job has caught up
  have hbeyond : s.flow.latest < s.flow.received.next := by
    rw [UInt32.lt_iff_toNat_lt, Flow.toNat_next_received, ← hlatest, awaits.id_eq]
    omega
  obtain ⟨hfinished, hrunning, hready⟩ := look.of_beyond hbeyond hcomplete
  exact ⟨hcommands ▸ List.mem_cons_of_mem _ hfinished, hrunning, hready⟩

/-- **At the last id a job is stuck.** -/
theorem Awaits.stuck (awaits : s.Awaits buffer segment) (h : s.Coherent)
    (hlast : s.flow.next.toNat = maxWord) : s.Stuck buffer segment (s.onBinary buffer) := by
  have advanced := awaits.advanced
  obtain ⟨more, hcommands, look⟩ := advanced.look
  have hnext : (s.onBinary buffer).1.flow.next = s.flow.next := by
    rw [← UInt32.toNat_inj, awaits.toNat_next, hlast]
    rfl
  -- what is in flight was announced, and nothing is beyond it
  have hle : s.flow.received.next ≤ s.flow.latest := by
    have hlatest := UInt32.le_iff_toNat_le.mp (h.waiting_le awaits.waiting)
    rw [UInt32.le_iff_toNat_le, Flow.toNat_next_received]
    omega
  obtain ⟨hsession, hnot⟩ := look.of_within hle rfl
  refine ⟨hnext, ⟨?_, ?_, awaits.decode_eq, awaits.id_eq.trans hnext.symm,
    .inr advanced.species_eq⟩, by simp [hcommands, hnot]⟩
  · rw [hsession]
    exact awaits.running
  · rw [hsession]

/-! ### A whole job -/

/-- The id of the segment that is accepted, if one is. -/
def acceptedId? (s : Session σ) : Deed σ → Option UInt32
  | .event e => (s.arrival? e).map Segment.id
  | _ => none

/-- **The ids of the segments that are accepted** in a run, in order. -/
def acceptedIds (s : Session σ) : List (Deed σ) → List UInt32
  | [] => []
  | deed :: deeds => (s.acceptedId? deed).toList ++ (s.perform deed).1.acceptedIds deeds

/-- What is accepted is what comes next. -/
theorem acceptedId?_eq (s : Session σ) (deed : Deed σ) :
    s.acceptedId? deed = if s.accepts deed then some s.flow.next else none := by
  cases deed with
  | event e =>
    rw [acceptedId?]
    split
    · next haccepts =>
      obtain ⟨buffer, segment, rfl, hd, -, he, -⟩ := accepts_event_iff.mp haccepts
      simp [arrival?, haccepts, hd, Except.toOption, (Flow.expects_iff.mp he).2]
    · next hnot => rw [arrival?_eq_none (by simpa using hnot), Option.map_none]
  | _ => rfl

/-- The segment that is awaited is accepted. -/
theorem Awaits.acceptedId?_eq (awaits : s.Awaits buffer segment) :
    s.acceptedId? (.event (.binary buffer)) = some segment.id := by
  have haccepts : s.accepts (.event (.binary buffer)) = true :=
    accepts_event_iff.mpr ⟨buffer, segment, rfl, awaits.decode_eq, awaits.running,
      Flow.expects_iff.mpr ⟨awaits.waiting, awaits.id_eq⟩,
      mismatch?_eq_none_iff_species.mpr awaits.species⟩
  rw [Session.acceptedId?_eq, if_pos haccepts, awaits.id_eq]

theorem acceptedIds_concat (s : Session σ) (deeds : List (Deed σ)) (deed : Deed σ) :
    s.acceptedIds (deeds ++ [deed]) =
      s.acceptedIds deeds ++ ((s.run deeds).1.acceptedId? deed).toList := by
  induction deeds generalizing s with
  | nil => simp [acceptedIds]
  | cons d ds ih => simp [acceptedIds, run_cons, ih]

/-- **The ids count up from one** to the last one, and stay there; and the next id goes on. -/
structure Numbered (ids : List UInt32) (u : Session σ) : Prop where
  /-- The ids count up. -/
  toNat_eq : ids.map UInt32.toNat = (List.range ids.length).map fun k => min (k + 1) maxWord
  /-- So does the next id. -/
  next_eq : u.flow.next.toNat = min (ids.length + 1) maxWord

/-- **One deed more** within a job. -/
theorem Numbered.step {ids : List UInt32} (h : Numbered ids s) {asked : List UInt32}
    (pace : Pace s deed s' asked) : Numbered (ids ++ (s.acceptedId? deed).toList) s' := by
  obtain ⟨htoNat, hnext⟩ := h
  rw [acceptedId?_eq]
  cases pace with
  | quiet haccepts hsame _ _ =>
    rw [haccepts]
    exact ⟨by simpa using htoNat, by rw [hsame]; simpa using hnext⟩
  | asks htimer _ hflow _ =>
    have haccepts : s.accepts deed = false := by simp [htimer, accepts]
    rw [haccepts]
    exact ⟨by simpa using htoNat, by rw [hflow]; simpa using hnext⟩
  | arrives haccepts hreceived _ =>
    rw [haccepts, if_pos rfl, Option.toList_some]
    refine ⟨?_, ?_⟩
    · simp [List.range_succ, htoNat, hnext]
    · rw [hreceived, Flow.toNat_next_received, hnext, List.length_append, List.length_singleton]
      omega

/-- **The ids of a job** count up, as long as no other job is submitted. -/
theorem numbered_run {s₀ : Session σ} (deeds : List (Deed σ))
    (hjob : ∀ payload, .send (.submit payload) ∉ (s₀.started.run deeds).2.commands) :
    Numbered (s₀.started.acceptedIds deeds) (s₀.started.run deeds).1 := by
  refine deeds_induction (P := fun ds u so => (∀ payload, .send (.submit payload) ∉ so.commands) →
    Numbered (s₀.started.acceptedIds ds) u) deeds (fun _ => ⟨rfl, rfl⟩) ?_ hjob
  intro ds d _ ih hjob
  simp only [Effects.commands_followedBy, List.mem_append, not_or] at hjob
  have coherent : (s₀.started.run ds).1.Coherent := (Coherent.of_fresh _ _ _ _).run ds
  have pace := (answer_perform (s₀.started.run ds).1 d).pace coherent fun payload =>
    (hjob payload).2
  rw [acceptedIds_concat]
  exact (ih fun payload => (hjob payload).1).step pace

/-- Numbers that count up to a last one, and stay there, differ as long as they do not stay. -/
theorem nodup_min_iff {n last : ℕ} (hpos : 0 < last) :
    ((List.range n).map fun k => min (k + 1) last).Nodup ↔ n ≤ last := by
  constructor
  · intro hnodup
    by_contra hlt
    -- the last number stands where it is reached and right after that
    have heq := List.inj_on_of_nodup_map hnodup (x := last - 1) (by simp; omega)
      (y := last) (by simp; omega) (by simp; omega)
    omega
  · intro hle
    refine List.nodup_range.map_on fun a ha b hb heq => ?_
    rw [List.mem_range] at ha hb
    omega

/-- **No segment twice, up to the last id.** A segment that is accepted moves the next id on, and
the latest segment of a complete job ends it, exactly below the last id; at the last id the job is
stuck. So the ids that a job accepts are 1, 2, 3 and so on, and none is accepted twice exactly if no
more segments are accepted than there are ids. -/
theorem accepted_once_iff {timing : Timing} {history : List (Deed σ)} {told : Effects σ}
    (hrun : run { timing } history = (s, told)) :
    (∀ buffer segment, s.Awaits buffer segment →
      (s.flow.next < (s.onBinary buffer).1.flow.next ↔ s.flow.next.toNat < maxWord) ∧
      (s.flow.complete = true → segment.id = s.flow.latest →
        (Done (s.onBinary buffer) ↔ s.flow.next.toNat < maxWord)) ∧
      (s.flow.next.toNat = maxWord → s.Stuck buffer segment (s.onBinary buffer))) ∧
    ∀ c s₁ effects job, s.submit c = .ok (s₁, effects) →
      (∀ payload, .send (.submit payload) ∉ (s₁.run job).2.commands) →
        (s₁.acceptedIds job).map UInt32.toNat =
          (List.range (s₁.acceptedIds job).length).map (fun k => min (k + 1) maxWord) ∧
        ((s₁.acceptedIds job).Nodup ↔ (s₁.acceptedIds job).length ≤ maxWord) := by
  have coherent : s.Coherent := by
    simpa [hrun] using (Coherent.of_fresh (σ := σ) timing false false false).run history
  refine ⟨fun buffer segment awaits => ⟨awaits.next_lt_iff, fun hcomplete hlatest => ⟨?_, ?_⟩,
    awaits.stuck coherent⟩, fun c s₁ effects job hsubmit hjob => ?_⟩
  · intro done
    by_contra hlast
    have hle : s.flow.next.toNat ≤ maxWord := Nat.le_of_lt_succ s.flow.next.toNat_lt
    exact (awaits.stuck coherent (by omega)).not_finished done.finished_mem
  · exact fun hlt => awaits.done hlt hcomplete hlatest
  · obtain ⟨rfl, -⟩ := submit_eq_ok hsubmit
    have numbered := numbered_run job hjob
    refine ⟨numbered.toNat_eq, ?_⟩
    rw [← List.nodup_map_iff (fun _ _ => UInt32.toNat_inj.mp), numbered.toNat_eq]
    exact nodup_min_iff (by decide)

/-- A job of two segments, of which the first has arrived: the second one ends it. -/
theorem accepted_once_iff_of_two :
    ∃ (s t u : Session Unit) (told heard effects : Effects Unit) (c : Configuration)
      (text : String) (one two : Bytes),
      ServerMessage.parse text = .ok (.newFrames ⟨2, 2⟩) ∧
      Segment.decode one = .ok ⟨1, [7], [[.origin]]⟩ ∧
      Segment.decode two = .ok ⟨2, [7], [[.origin]]⟩ ∧
      run {} [.event .connected] = (s, told) ∧ s.submit c = .ok (u, effects) ∧
      run {} [.event .connected, .submit c, .event (.text text), .event (.binary one)] =
        (t, heard) ∧
      t.flow.next < (t.onBinary two).1.flow.next ∧ Done (t.onBinary two) ∧
      u.acceptedIds [.event (.text text), .event (.binary one), .event (.binary two)] = [1, 2] ∧
      (u.acceptedIds [.event (.text text), .event (.binary one), .event (.binary two)]).Nodup := by
  obtain ⟨text, htext⟩ : ∃ text, ServerMessage.parse text = .ok (.newFrames ⟨2, 2⟩) :=
    ⟨"new_frames\x7b\"l\":2,\"f\":2\x7d", by cbv⟩
  obtain ⟨one, hone⟩ : ∃ buffer, Segment.decode buffer = .ok ⟨1, [7], [[.origin]]⟩ :=
    ⟨Segment.encode 1 [7] [[.origin]], rfl⟩
  obtain ⟨two, htwo⟩ : ∃ buffer, Segment.decode buffer = .ok ⟨2, [7], [[.origin]]⟩ :=
    ⟨Segment.encode 2 [7] [[.origin]], rfl⟩
  let c : Configuration := ⟨[⟨"ETH", 1⟩], []⟩
  let history : List (Deed Unit) :=
    [.event .connected, .submit c, .event (.text text), .event (.binary one)]
  let job : List (Deed Unit) := [.event (.text text), .event (.binary one), .event (.binary two)]
  obtain ⟨s, told, hs, u, effects, hu⟩ : ∃ s told, run {} [.event .connected] = (s, told) ∧
      ∃ u effects, s.submit c = .ok ((u, effects) : Session Unit × Effects Unit) :=
    ⟨_, _, rfl, _, _, rfl⟩
  obtain ⟨hids, hcommands⟩ : u.acceptedIds job = [1, 2] ∧
      (u.run job).2.commands = [.schedule .debounce 250, .schedule .retry 10000,
        .cancelTimer .retry, .schedule .debounce 250, .schedule .retry 10000,
        .cancelTimer .retry, .cancelTimer .debounce, .cancelTimer .retry, .finished] := by
    obtain ⟨rfl, -⟩ := submit_eq_ok hu
    obtain rfl : _ = s := congrArg Prod.fst hs
    simp only [job, run_cons, acceptedIds, acceptedId?, arrival?, accepts, Session.perform,
      Session.handle, onText, onBinary, htext, hone, htwo]
    exact ⟨rfl, rfl⟩
  obtain ⟨t, heard, ht, hrunning, hflow, hspecies⟩ : ∃ t heard, run {} history = (t, heard) ∧
      t.running = true ∧
      t.flow = { next := 2, latest := 2, total := 2, waiting := true, complete := true } ∧
      t.trajectory.species = some [7] := by
    refine ⟨(run {} history).1, (run {} history).2, rfl, ?_⟩
    simp only [history, run_cons, Session.perform, Session.handle, onText, onBinary, htext, hone]
    exact ⟨rfl, rfl, rfl⟩
  have awaits : t.Awaits two ⟨2, [7], [[.origin]]⟩ :=
    ⟨hrunning, by rw [hflow], htwo, by rw [hflow], .inr hspecies⟩
  have hbelow : t.flow.next.toNat < maxWord := by
    rw [hflow]
    decide
  obtain ⟨hnext, hdone, -⟩ := (accepted_once_iff ht).1 two _ awaits
  obtain ⟨-, hnodup⟩ := (accepted_once_iff hs).2 c u effects job hu fun payload => by
    simp [hcommands]
  refine ⟨s, t, u, told, heard, effects, c, text, one, two, htext, hone, htwo, hs, hu, ht,
    hnext.mpr hbelow, (hdone (by rw [hflow]) (by rw [hflow])).mpr hbelow, hids, hnodup.mpr ?_⟩
  rw [hids]
  decide

/-! ### The last id -/

/-- **The segments of a job**, all of the same content, from the first one on. -/
def deliveries (species : Bytes) (frames : List Frame) (n : ℕ) : List (Deed σ) :=
  (List.range n).map fun k =>
    .event (.binary (Segment.encode (UInt32.ofNat (k + 1)) species frames))

/-- **A job that is being fetched**: its last segment is announced, so many have been accepted, and
the next one is in flight. -/
structure Fetching (species : Bytes) (last : UInt32) (n : ℕ) (s : Session σ) : Prop where
  /-- There is a connection. -/
  connected : s.connected = true
  /-- The submission has been answered. -/
  pending_eq : s.pending = false
  /-- The job has not failed. -/
  failed_eq : s.failed = false
  /-- The job runs. -/
  running : s.running = true
  /-- This is where the download stands. -/
  flow_eq : s.flow = { next := UInt32.ofNat (n + 1), latest := last, total := last,
                       waiting := true, complete := true }
  /-- The segments have the species of the job. -/
  species : s.trajectory.species = none ∨ s.trajectory.species = some species

variable {species : Bytes} {frames : List Frame} {last : UInt32}

theorem Fetching.awaits (fetching : Fetching species last n s)
    (hdecode : Segment.decode buffer = .ok ⟨UInt32.ofNat (n + 1), species, frames⟩) :
    s.Awaits buffer ⟨UInt32.ofNat (n + 1), species, frames⟩ :=
  ⟨fetching.running, by rw [fetching.flow_eq], hdecode, by rw [fetching.flow_eq],
    fetching.species⟩

/-- **One segment more** is accepted, and the job goes on: below the last id because another one is
announced, and at the last id because the next one is the same. -/
theorem Fetching.step (fetching : Fetching species last n s) (hn : n < maxWord)
    (hlast : min (n + 2) maxWord ≤ last.toNat)
    (hdecode : Segment.decode buffer = .ok ⟨UInt32.ofNat (n + 1), species, frames⟩) :
    Fetching species last (min (n + 1) (maxWord - 1)) (s.onBinary buffer).1 := by
  have advanced := (fetching.awaits hdecode).advanced
  obtain ⟨more, -, look⟩ := advanced.look
  have hspecies := advanced.species_eq
  have hid {k : ℕ} (hk : k < maxWord) : (UInt32.ofNat (k + 1)).toNat = k + 1 :=
    UInt32.toNat_ofNat_of_lt' (by unfold maxWord at hk; unfold UInt32.size; omega)
  have hsuccessor : Flow.successor (UInt32.ofNat (n + 1)) =
      UInt32.ofNat (min (n + 1) (maxWord - 1) + 1) := by
    rw [← UInt32.toNat_inj, Flow.toNat_successor, hid hn, hid (by omega)]
    omega
  have hle : UInt32.ofNat (min (n + 1) (maxWord - 1) + 1) ≤ last := by
    rw [UInt32.le_iff_toNat_le, hid (by omega)]
    omega
  have hflow : s.flow.received = { next := UInt32.ofNat (min (n + 1) (maxWord - 1) + 1)
                                   latest := last, total := last
                                   waiting := false, complete := true } := by
    rw [Flow.received, fetching.flow_eq, hsuccessor]
  obtain ⟨hsession, -⟩ := look.of_within (by simpa only [appending, hflow] using hle) rfl
  rw [hsession] at hspecies ⊢
  exact ⟨fetching.connected, rfl, fetching.failed_eq, fetching.running,
    by simp only [appending, hflow], .inr hspecies⟩

/-- **A job is fetched** segment by segment, up to the last one. -/
theorem Fetching.run (start : Fetching species last 0 s)
    (hdecode : ∀ id, Segment.decode (Segment.encode id species frames) = .ok ⟨id, species, frames⟩)
    (hlt : n < last.toNat) :
    Fetching species last n (s.run (deliveries species frames n)).1 := by
  induction n with
  | zero => exact start
  | succ k ih =>
    have hle : last.toNat ≤ maxWord := Nat.le_of_lt_succ last.toNat_lt
    have fetching := (ih (by omega)).step (by omega) (by omega) (hdecode _)
    rw [Nat.min_eq_left (by omega)] at fetching
    rw [deliveries, List.range_succ, List.map_append, List.map_singleton, run_concat]
    exact fetching

theorem Fetching.status_eq (fetching : Fetching species last n s) (hlast : last ≠ 0) :
    s.status = .downloading (UInt32.ofNat (n + 1)) last := by
  simp [status, JobStatus.derive, fetching.connected, fetching.pending_eq, fetching.failed_eq,
    fetching.running, fetching.flow_eq, hlast]

/-- A job of as many segments as there are ids is announced as complete at once, and all segments
but the last one are accepted. Then the last one is accepted as well; the next id stays where it
is, the job goes on, and the same segment is accepted again. -/
theorem accepted_again_at_last :
    ∃ (text : String) (s : Session Unit) (told : Effects Unit) (buffer : Bytes),
      text = "new_frames\x7b\"l\":4294967295,\"f\":4294967295\x7d" ∧
      buffer = Segment.encode 4294967295 [7] [[.origin]] ∧
      run {} ([.event .connected, .submit ⟨[⟨"ETH", 1⟩], []⟩, .event (.text text)] ++
        deliveries [7] [[.origin]] 4294967294) = (s, told) ∧
      s.Awaits buffer ⟨4294967295, [7], [[.origin]]⟩ ∧ s.flow.complete = true ∧
      s.flow.latest = 4294967295 ∧ ¬ s.flow.next < (s.onBinary buffer).1.flow.next ∧
      .finished ∉ (s.onBinary buffer).2.commands ∧
      (s.onBinary buffer).1.status = .downloading 4294967295 4294967295 ∧
      s.acceptedIds [.event (.binary buffer), .event (.binary buffer)] =
        [4294967295, 4294967295] := by
  obtain ⟨text, heq, htext⟩ : ∃ text,
      text = "new_frames\x7b\"l\":4294967295,\"f\":4294967295\x7d" ∧
      ServerMessage.parse text = .ok (.newFrames ⟨4294967295, 4294967295⟩) := ⟨_, rfl, by cbv⟩
  have hdecode (id : UInt32) :
      Segment.decode (Segment.encode id [7] [[.origin]]) = .ok ⟨id, [7], [[.origin]]⟩ :=
    Segment.decode_encode (s := ⟨id, [7], [[.origin]]⟩)
      ⟨by simp, by simp, by simp [UInt32.size], by simp [UInt32.size],
        by simp [SegmentHeader.size, SegmentHeader.stride, addressLimit, UInt64.size]⟩
  obtain ⟨buffer, hencode, hbuffer⟩ : ∃ buffer,
      buffer = Segment.encode 4294967295 [7] [[.origin]] ∧
      Segment.decode buffer = .ok ⟨4294967295, [7], [[.origin]]⟩ := ⟨_, rfl, hdecode 4294967295⟩
  let before : List (Deed Unit) :=
    [.event .connected, .submit ⟨[⟨"ETH", 1⟩], []⟩, .event (.text text)]
  have start : Fetching [7] 4294967295 0 (run {} before).1 := by
    simp only [before, run_cons, Session.perform, Session.handle, onText, htext]
    exact ⟨rfl, rfl, rfl, rfl, rfl, .inl rfl⟩
  obtain ⟨s, told, hrun, fetching, coherent⟩ : ∃ s told,
      run {} (before ++ deliveries [7] [[.origin]] 4294967294) = (s, told) ∧
      Fetching [7] 4294967295 4294967294 s ∧ s.Coherent :=
    ⟨_, _, run_append _ _ _, start.run hdecode (by decide),
      ((Coherent.of_fresh _ _ _ _).run before).run _⟩
  have awaits : s.Awaits buffer ⟨4294967295, [7], [[.origin]]⟩ := fetching.awaits hbuffer
  -- the last segment is accepted, and the job stands where it stood before
  have again : Fetching [7] 4294967295 4294967294 (s.onBinary buffer).1 :=
    fetching.step (by decide) (by decide) hbuffer
  have stuck := awaits.stuck coherent (by rw [fetching.flow_eq]; decide)
  have hids : s.acceptedIds [.event (.binary buffer), .event (.binary buffer)] =
      [4294967295, 4294967295] := by
    have hagain : ((s.perform (.event (.binary buffer))).1.acceptedId?
        (.event (.binary buffer))) = some 4294967295 := stuck.awaits.acceptedId?_eq
    simp only [acceptedIds, awaits.acceptedId?_eq, hagain, Option.toList_some, List.append_nil,
      List.singleton_append]
  exact ⟨text, s, told, buffer, heq, hencode, hrun, awaits, by rw [fetching.flow_eq],
    by rw [fetching.flow_eq], by rw [stuck.next_eq]; exact UInt32.lt_irrefl _, stuck.not_finished,
    again.status_eq (by decide), hids⟩

end Session

end Deposition
