import Deposition.Proofs.Job.Streaming
import Deposition.Proofs.Session.Independence

/-!
# How a job ends

A job is run from before the first connection, and nothing is submitted until there is one. Then the
job opens its exports, registers them and submits its configuration. If nothing stands in the way –
the configuration is valid, and the exports can be opened (`Deposition.Exports.openFor`) – this
makes it a job that is under way, followed by its exports and by nobody else
(`Deposition.Job.step_start_connected`); and from there on `Deposition.Job.Streaming.run` says how
it fares.

The result is `Deposition.Job.ends_with_first`, about every script from the start. Connections that
come later find the job submitted, so there is one submission however many of them there are.
-/

namespace Deposition

/-- The exports that a job is to have. -/
def JobOptions.exports (o : JobOptions) : List ExportKind :=
  (o.archive.toList.map fun _ => .archive) ++ o.xyz.toList.map fun _ => .xyz

theorem JobOptions.nodup_exports (o : JobOptions) : o.exports.Nodup := by
  obtain ⟨bins, xyz, archive⟩ := o
  cases xyz <;> cases archive <;> simp [exports]

/-- The exports of a job when they have been opened, first the archive and then the XYZ text. -/
def Exports.openFor (e : Exports) (o : JobOptions) : Except IoError Exports :=
  (o.archive.elim (.ok e) e.openArchive).bind fun archived =>
    o.xyz.elim (.ok archived) archived.openXyz

theorem Exports.openFor_eq_ok {e opened : Exports} {o : JobOptions}
    (h : e.openFor o = .ok opened) : ∃ archived,
      o.archive.elim (.ok e) e.openArchive = .ok archived ∧
      o.xyz.elim (.ok archived) archived.openXyz = .ok opened := by
  unfold openFor at h
  cases harchive : o.archive.elim (.ok e) e.openArchive with
  | error error => simp [harchive, Except.bind] at h
  | ok archived => exact ⟨archived, rfl, by simpa [harchive, Except.bind] using h⟩

/-- Sinks that register follow after those that are there. -/
theorem Session.foldl_registerSink {σ : Type} (s : Session σ) (sinks : List σ) :
    sinks.foldl registerSink s =
      { s with trajectory := { s.trajectory with sinks := s.trajectory.sinks ++ sinks } } := by
  induction sinks generalizing s with
  | nil => simp
  | cons sink sinks ih => simp [ih, registerSink, Trajectory.register]

namespace Job

variable {j : Job}

/-- The job with exports that have been opened, of which these register. -/
def withExports (j : Job) (exports : Exports) (sinks : List ExportKind) : Job :=
  { j with exports, session := sinks.foldl Session.registerSink j.session }

theorem openArchive_eq {exports : Exports}
    (h : j.options.archive.elim (.ok j.exports) j.exports.openArchive = .ok exports) :
    j.openArchive =
      .ok (j.withExports exports (j.options.archive.toList.map fun _ => .archive)) := by
  unfold openArchive
  cases ha : j.options.archive with
  | none =>
    obtain rfl : j.exports = exports := by simpa [ha] using h
    rfl
  | some path =>
    have hopen : j.exports.openArchive path = .ok exports := by simpa [ha] using h
    simp [hopen, withExports]

theorem openXyz_eq {exports : Exports}
    (h : j.options.xyz.elim (.ok j.exports) j.exports.openXyz = .ok exports) :
    j.openXyz = .ok (j.withExports exports (j.options.xyz.toList.map fun _ => .xyz)) := by
  unfold openXyz
  cases hx : j.options.xyz with
  | none =>
    obtain rfl : j.exports = exports := by simpa [hx] using h
    rfl
  | some path =>
    have hopen : j.exports.openXyz path = .ok exports := by simpa [hx] using h
    simp [hopen, withExports]

/-- **A submission that the session accepts goes through**, if the exports can be opened. -/
theorem submit_eq {session : Session ExportKind} {effects : Effects ExportKind}
    (hs : j.session.submit j.configuration = .ok (session, effects)) {opened : Exports}
    (hopen : (j.exports.hearAll effects.notices).1.openFor j.options = .ok opened) (now : Nat) :
    j.submit now = {
      job := { j with
        session := j.options.exports.foldl Session.registerSink session
        timers := j.timers.obeyAll now effects.commands
        exports := opened
        submitted := true }
      notices := effects.notices
      sends := [.submit j.configuration.submissionText] } := by
  obtain ⟨archived, harchive, hxyz⟩ := Exports.openFor_eq_ok hopen
  obtain ⟨-, hcommands, -⟩ := Session.submit_eq_ok hs
  have hfinished : .finished ∉ effects.commands := by simp [hcommands, Session.cancelTimers]
  have hsends : effects.commands.filterMap sent? = [.submit j.configuration.submissionText] := by
    rw [hcommands]
    rfl
  unfold submit
  rw [hs]
  dsimp only
  rw [openArchive_eq harchive]
  dsimp only
  rw [openXyz_eq hxyz]
  have hquiet : (opened.hearAll []).1 = opened := rfl
  simp [withExports, Step.following, absorb, hsends, hfinished, hquiet, Timers.obeyAll,
    JobOptions.exports]

section Start

variable (preferences : Preferences) {configuration : Configuration} {options : JobOptions}
  {files : Files} {opened : Exports}

/-- The job that has just submitted its configuration on the first connection. -/
def submittedJob (preferences : Preferences) (configuration : Configuration) (options : JobOptions)
    (opened : Exports) : Job where
  configuration := configuration
  options := options
  session :=
    { timing := preferences.timing, connected := true, running := true, pending := true
      trajectory := { sinks := options.exports } }
  exports := opened
  submitted := true
  shown := .submitting

/-- It is under way. -/
theorem streaming_submittedJob :
    (submittedJob preferences configuration options opened).Streaming options.exports true :=
  ⟨rfl, rfl, rfl, rfl, (Session.Coherent.of_fresh _ _ _ _).withSinks _, rfl⟩

/-- **On the first connection the configuration is submitted.** -/
theorem step_start_connected (hvalid : configuration.validate = .ok ())
    (hopen : Exports.openFor { files } options = .ok opened) (now : Nat) :
    (start preferences configuration options files).step now (.event .connected) =
      { job := submittedJob preferences configuration options opened
        sends := [.submit configuration.submissionText] } := by
  obtain ⟨⟨session, effects⟩, hs⟩ : ∃ step, Session.submit
      ({ timing := preferences.timing, connected := true } : Session ExportKind) configuration =
        .ok step :=
    Session.submit_eq_ok_iff.mpr ⟨rfl, rfl, rfl, Configuration.validate_eq_ok_iff.mp hvalid⟩
  obtain ⟨rfl, hcommands, hnotices⟩ := Session.submit_eq_ok hs
  have hnone : effects.notices = [] := hnotices
  let heard := ((start preferences configuration options files).absorb now
    ((start preferences configuration options files).session.handle .connected))
  have hsubmit := submit_eq (j := heard.job) hs (by rw [hnone]; exact hopen) now
  have hreact : (start preferences configuration options files).react now (.event .connected) =
      (heard.job.submit now).following heard := rfl
  rw [hsubmit, hnone, hcommands, Session.foldl_registerSink] at hreact
  have hshowing : ((start preferences configuration options files).react now
      (.event .connected)).job.showing =
        submittedJob preferences configuration options opened := by
    rw [hreact]
    rfl
  rw [step_of_verdict, hshowing, hreact]
  · rfl
  · rw [hreact]
    rfl
  · rw [hshowing]
    exact (streaming_submittedJob preferences).verdict_eq

theorem brings_start_connected (hvalid : configuration.validate = .ok ())
    (hopen : Exports.openFor { files } options = .ok opened) (now : Nat) :
    let j := start preferences configuration options files
    j.Brings options.exports (j.Ends (.event .connected)) [] (j.step now (.event .connected)) := by
  intro j
  rw [step_start_connected preferences hvalid hopen]
  refine ⟨fun outcome => ?_, rfl, fun before hbefore => ?_⟩
  · simp [not_ends_connected]
  · rw [List.append_nil]
    exact hbefore.withSinks _

/-- **A job that follows a script from the start** brings about what it should. It has submitted as
soon as it has been connected, and from then on the exports hear what the sinks are told. -/
theorem run_start (hvalid : configuration.validate = .ok ())
    (hopen : Exports.openFor { files } options = .ok opened)
    {occurrences : List (Nat × Occurrence)} (script : Script false occurrences) :
    let j := start preferences configuration options files
    j.Brings options.exports (j.EndsBy occurrences) (j.accepted occurrences) (j.run occurrences) ∧
      ((j.run occurrences).job.submitted = true ↔
        .event .connected ∈ occurrences.map Prod.snd) ∧
      (.event .connected ∈ occurrences.map Prod.snd → (j.run occurrences).job.exports =
        (opened.hearAll (j.run occurrences).notices).1) := by
  intro j
  induction occurrences with
  | nil => exact ⟨brings_nil options.exports j, by simp [j, start], by simp⟩
  | cons head later ih =>
    obtain ⟨now, occurrence⟩ := head
    cases script with
    | @cons _ up' _ _ _ possible rest =>
    cases possible with
    | connected =>
      have hstep : j.step now (.event .connected) = _ :=
        step_start_connected preferences hvalid hopen now
      have hended : (j.step now (.event .connected)).ended = none := by rw [hstep]
      have streaming : (j.step now (.event .connected)).job.Streaming options.exports true := by
        rw [hstep]
        exact streaming_submittedJob preferences
      have hears := hears_run streaming.submitted later
      have submitted := (hands_run _ later).submitted_eq streaming.submitted
      rw [run_cons_of_going hended, accepted_cons_of_going hended]
      refine ⟨?_, ?_, fun _ => ?_⟩
      · have first := brings_start_connected preferences hvalid hopen now
        exact (first.following hended (streaming.run rest)).congr fun _ =>
          endsBy_cons_iff_of_not_ends j.not_ends_connected
      · simpa [Step.following] using submitted
      · simpa [Step.following, Hears, hstep, submittedJob] using hears
    | timer =>
      -- no timer is pending, and the job stays as it is
      have hended : (j.step now .timer).ended = none := rfl
      have hrun : j.run ((now, .timer) :: later) = j.run later := by
        rw [run_cons_of_going hended]
        rfl
      have haccepted : j.accepted ((now, .timer) :: later) = j.accepted later :=
        accepted_cons_of_going hended
      have hmem : .event .connected ∈ ((now, .timer) :: later).map Prod.snd ↔
          .event .connected ∈ later.map Prod.snd := by simp
      obtain ⟨brings, hsubmitted, hexports⟩ := ih rest
      rw [hrun, haccepted, hmem]
      exact ⟨brings.congr fun _ => endsBy_cons_iff_of_not_ends (not_ends rfl), hsubmitted,
        hexports⟩

/-- **A job ends with the first occurrence that ends it, and not before.** Let a job with a valid
configuration and exports that can be opened be left alone, while connections come and go, messages
arrive in between and timers run out. It submits its configuration once, when the first connection
comes up. It ends if and only if something happens that ends it, and in the way of the first that
does. The segments accepted by then make its trajectory; each export has been told of them in order
and, when the job has ended, of one release; and the exports have heard what they were told. -/
theorem ends_with_first (hvalid : configuration.validate = .ok ())
    (hopen : Exports.openFor { files } options = .ok opened)
    {occurrences : List (Nat × Occurrence)} (script : Script false occurrences) :
    let j := start preferences configuration options files
    let r := j.run occurrences
    (∀ part, part <+: occurrences → submissions (j.run part).sends =
      if .event .connected ∈ part.map Prod.snd then 1 else 0) ∧
    (∀ payload, .submit payload ∈ r.sends → payload = configuration.submissionText) ∧
    (∀ outcome, r.ended = some outcome ↔ j.EndsBy occurrences outcome) ∧
    r.job.session.trajectory.MadeOf (j.accepted occurrences) ∧
    (∀ x, callsTo x r.notices =
      if x ∈ options.exports then
        (j.accepted occurrences).map Segment.call ++ if r.ended.isSome then [.released] else []
      else []) ∧
    (.event .connected ∈ occurrences.map Prod.snd →
      r.job.exports = (opened.hearAll r.notices).1) := by
  intro j r
  obtain ⟨brings, -, hexports⟩ := run_start preferences hvalid hopen script
  refine ⟨fun part hpart => ?_, (hands_run j occurrences).payload_eq, brings.ended_iff,
    brings.madeOf [] (Trajectory.madeOf_nil []), fun x => ?_, hexports⟩
  · have hcount := (hands_run j part).count_eq
    obtain ⟨-, hsubmitted, -⟩ := run_start preferences hvalid hopen (script.of_prefix hpart)
    rw [show j.submitted = false from rfl, Bool.toNat_false, Nat.zero_add] at hcount
    rw [← hcount]
    split
    · next hmem =>
      rw [hsubmitted.mpr hmem]
      rfl
    · next hmem =>
      rw [Bool.eq_false_iff.mpr (mt hsubmitted.mp hmem)]
      rfl
  · rw [brings.notices_eq, callsTo_tellAll options.nodup_exports, calls]

end Start

/-- The connection is lost before anything has been announced; and when the first of two segments is
there, the server gives the job up. -/
def givenUp (text : String) (buffer : Bytes) : List (Nat × Occurrence) :=
  [(0, .event .connected), (1, .event .disconnected), (2, .timer), (3, .event .connected),
    (4, .event (.text text)), (5, .event (.binary buffer)), (6, .event (.text "failed"))]

theorem script_givenUp (text : String) (buffer : Bytes) : Script false (givenUp text buffer) :=
  .cons .connected <| .cons .disconnected <| .cons (.timer _) <| .cons .connected <|
    .cons (.text _) <| .cons (.binary _) <| .cons (.text _) <| .nil _

/-- Its archive has been told of the segment and is released. -/
theorem ends_with_first_of_failed :
    ∃ (text : String) (buffer : Bytes) (opened : Exports),
      let options : JobOptions := { bins := 10, archive := some "a" }
      let r := (start {} ⟨[⟨"ETH", 1⟩], []⟩ options {}).run (givenUp text buffer)
      Exports.openFor { files := {} } options = .ok opened ∧ submissions r.sends = 1 ∧
      r.ended = some (.error .jobFailed) ∧
      callsTo .archive r.notices = [.segment 1 [7] [[.origin]], .released] ∧
      callsTo .xyz r.notices = [] ∧ r.job.session.trajectory.frames = [[.origin]] := by
  obtain ⟨text, hp⟩ : ∃ text, ServerMessage.parse text = .ok (.newFrames ⟨1, 2⟩) :=
    ⟨"new_frames\x7b\"l\":1,\"f\":2\x7d", by cbv⟩
  obtain ⟨buffer, hd⟩ : ∃ buffer, Segment.decode buffer = .ok ⟨1, [7], [[.origin]]⟩ :=
    ⟨Segment.encode 1 [7] [[.origin]], rfl⟩
  let options : JobOptions := { bins := 10, archive := some "a" }
  obtain ⟨opened, hopen⟩ : ∃ opened, Exports.openFor { files := {} } options = .ok opened := by
    have hsome : (Exports.openFor { files := {} } options).toOption.isSome = true := by
      decide +kernel
    cases h : Exports.openFor { files := {} } options with
    | error error => simp [h, Except.toOption] at hsome
    | ok opened => exact ⟨opened, rfl⟩
  have hvalid : Configuration.validate ⟨[⟨"ETH", 1⟩], []⟩ = .ok () := rfl
  -- the jobs that come of these occurrences, one after the other
  let submitted : Job := submittedJob {} ⟨[⟨"ETH", 1⟩], []⟩ options opened
  let lost : Job := { submitted with
    session := { submitted.session with connected := false }
    shown := .disconnected }
  let announced : Job := { submitted with
    session := { submitted.session with
      pending := false, armed := true, flow := { latest := 1, total := 2, waiting := true } }
    timers := { debounce := some (4 + 250), retry := some (4 + 10000) }
    shown := .running 2 2 }
  have h₀ : (start {} ⟨[⟨"ETH", 1⟩], []⟩ options {}).step 0 (.event .connected) =
      { job := submitted, sends := [.submit (Configuration.submissionText ⟨[⟨"ETH", 1⟩], []⟩)] } :=
    step_start_connected {} hvalid hopen 0
  have h₁ : submitted.step 1 (.event .disconnected) = { job := lost } := rfl
  have h₂ : lost.step 2 .timer = { job := lost } := rfl
  have h₃ : lost.step 3 (.event .connected) = { job := submitted } := rfl
  have h₄ : submitted.step 4 (.event (.text text)) = { job := announced } := by
    simp only [step, react, Session.handle, Session.onText, hp]
    rfl
  have h₅ : (announced.step 5 (.event (.binary buffer))).ended = none := by
    simp only [step, react, Session.handle, Session.onBinary, hd]
    rfl
  have h₆ : ((announced.step 5 (.event (.binary buffer))).job.step 6
      (.event (.text "failed"))).ended = some (.error .jobFailed) := by
    simp only [step, react, Session.handle, Session.onBinary, hd]
    rfl
  have hended : ((start {} ⟨[⟨"ETH", 1⟩], []⟩ options {}).run (givenUp text buffer)).ended =
      some (.error .jobFailed) := by
    simp [givenUp, run, h₀, h₁, h₂, h₃, h₄, h₅, h₆, Step.following]
  have haccepted : (start {} ⟨[⟨"ETH", 1⟩], []⟩ options {}).accepted (givenUp text buffer) =
      [⟨1, [7], [[.origin]]⟩] := by
    have harrival : announced.arrival? (.event (.binary buffer)) = some ⟨1, [7], [[.origin]]⟩ := by
      simp only [arrival?, event?, Option.bind, Session.arrival?, Session.accepts, hd]
      rfl
    simp only [givenUp, accepted, h₀, h₁, h₂, h₃, h₄, h₅, h₆, harrival]
    rfl
  obtain ⟨hsubmissions, -, -, hmade, hcalls, -⟩ :=
    ends_with_first {} hvalid hopen (script_givenUp text buffer)
  refine ⟨text, buffer, opened, hopen, hsubmissions _ List.prefix_rfl, hended, ?_, ?_, ?_⟩
  · rw [hcalls, haccepted, hended]
    rfl
  · rw [hcalls]
    rfl
  · rw [hmade.frames_eq, haccepted]
    rfl

end Job

end Deposition
