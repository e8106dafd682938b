import Deposition.Proofs.Job.Submission
import Deposition.Proofs.Session.Fate

/-!
# Jobs that follow a script

A job that its user leaves alone is run by two things: what comes from the connection, and its own
clock. A *script* is a list of such occurrences in which connections come and go in turn and
messages arrive only in between (`Deposition.Job.Script`); timers may run out anywhere. A run of
the job follows the script up to the step that ends the job (`Deposition.Job.run`).

What a run should come to is said here without looking at how a job decides that it is over.

* `Deposition.Job.Ends` says which occurrences end a job: the session emits that everything is
  there, or the server says that the job has failed, or that it is cancelled. The first of them in
  a script ends it (`Deposition.Job.EndsBy`).
* `Deposition.Job.accepted` is what the session has accepted by then.

Two things that a run hands on are accounted for here as well, because they hold of every run: the
submission is handed to the connection at most once (`Deposition.Job.hands_run`), and the exports
have heard what the sinks were told (`Deposition.Job.hears_run`).
-/

namespace Deposition

/-- What the exports hear changes them, and the log makes no difference to that. -/
theorem Exports.hearAll_fst (e : Exports) (notices : List (Notice ExportKind)) :
    (e.hearAll notices).1 = notices.foldl (fun e notice => (e.hear notice).1) e :=
  (List.foldl_hom Prod.fst fun _ _ => rfl).symm

/-- **The exports hear two lists of things** one after the other. -/
theorem Exports.hearAll_append (e : Exports) (ns ms : List (Notice ExportKind)) :
    (e.hearAll (ns ++ ms)).1 = ((e.hearAll ns).1.hearAll ms).1 := by
  simp only [hearAll_fst, List.foldl_append]

namespace Job

variable {j : Job} {now : Nat} {occurrence : Occurrence}
  {occurrences later : List (Nat × Occurrence)} {outcome : Except Failure JobOutcome}
  {up up' : Bool} {e : Event}

/-! ### Scripts -/

/-- **What can happen to a job that is left alone**, by whether there is a connection, and whether
there is one afterwards. -/
inductive Possible : Bool → Occurrence → Bool → Prop
  | connected : Possible false (.event .connected) true
  | disconnected : Possible true (.event .disconnected) false
  | text (text : String) : Possible true (.event (.text text)) true
  | binary (buffer : Bytes) : Possible true (.event (.binary buffer)) true
  | timer (up : Bool) : Possible up .timer up

/-- A script, by whether there is a connection to begin with. -/
inductive Script : Bool → List (Nat × Occurrence) → Prop
  | nil (up : Bool) : Script up []
  | cons {up up' : Bool} {now : Nat} {occurrence : Occurrence} {later : List (Nat × Occurrence)}
      (possible : Possible up occurrence up') (rest : Script up' later) :
      Script up ((now, occurrence) :: later)

/-- A script that is broken off is a script. -/
theorem Script.of_prefix {part : List (Nat × Occurrence)} (script : Script up occurrences)
    (h : part <+: occurrences) : Script up part := by
  induction script generalizing part with
  | nil up =>
    rw [List.prefix_nil.mp h]
    exact .nil up
  | cons possible _ ih =>
    rcases List.prefix_cons_iff.mp h with rfl | ⟨rest, rfl, hrest⟩
    · exact .nil _
    · exact .cons possible (ih hrest)

/-! ### Runs -/

/-- A job follows a script, up to the step that ends it. -/
def run (j : Job) : List (Nat × Occurrence) → Step
  | [] => { job := j }
  | (now, occurrence) :: later =>
    let first := j.step now occurrence
    if first.ended.isSome then first else (first.job.run later).following first

@[simp] theorem run_nil (j : Job) : j.run [] = { job := j } := rfl

theorem run_cons_of_ended (h : (j.step now occurrence).ended = some outcome) :
    j.run ((now, occurrence) :: later) = j.step now occurrence := by
  simp [run, h]

theorem run_cons_of_going (h : (j.step now occurrence).ended = none) :
    j.run ((now, occurrence) :: later) =
      ((j.step now occurrence).job.run later).following (j.step now occurrence) := by
  simp [run, h]

/-! ### What ends a job -/

/-- The event that an occurrence is for the session. -/
def event? (j : Job) : Occurrence → Option Event
  | .event e => some e
  | .timer => j.timers.nextDue?.map fun (timer, _) => .timer timer
  | .interrupt | .graceOver => none

/-- **What ends a job**, and how. -/
inductive Ends (j : Job) (occurrence : Occurrence) : Except Failure JobOutcome → Prop
  /-- The session has everything, and its last frame is analysed. -/
  | completed {e : Event} (he : j.event? occurrence = some e)
      (h : .finished ∈ (j.session.handle e).2.commands) :
      Ends j occurrence (.ok (.completed
        ((j.session.handle e).1.trajectory.lastFrame?.bind fun last =>
          HeightMap.ofFrame last.species last.frame j.options.bins)))
  /-- The server says that the job has failed. -/
  | failed {e : Event} (he : j.event? occurrence = some e) (h : e.Says .failed) :
      Ends j occurrence (.error .jobFailed)
  /-- The server says that the job is cancelled. -/
  | cancelled {e : Event} (he : j.event? occurrence = some e) (h : e.Says .cancelled) :
      Ends j occurrence (.ok .cancelled)

theorem ends_iff (he : j.event? occurrence = some e) : j.Ends occurrence outcome ↔
    (.finished ∈ (j.session.handle e).2.commands ∧
      outcome = .ok (.completed ((j.session.handle e).1.trajectory.lastFrame?.bind fun last =>
        HeightMap.ofFrame last.species last.frame j.options.bins))) ∨
    (e.Says .failed ∧ outcome = .error .jobFailed) ∨
    (e.Says .cancelled ∧ outcome = .ok .cancelled) := by
  constructor
  · rintro (⟨he', h⟩ | ⟨he', h⟩ | ⟨he', h⟩)
    all_goals
      obtain rfl := Option.some.inj (he.symm.trans he')
      simp [h]
  · rintro (⟨h, rfl⟩ | ⟨h, rfl⟩ | ⟨h, rfl⟩)
    · exact .completed he h
    · exact .failed he h
    · exact .cancelled he h

theorem not_ends (he : j.event? occurrence = none) (outcome : Except Failure JobOutcome) :
    ¬ j.Ends occurrence outcome := by
  rintro (⟨he', -⟩ | ⟨he', -⟩ | ⟨he', -⟩)
  all_goals simp [he] at he'

/-- A connection that comes up ends no job. -/
theorem not_ends_connected (j : Job) (outcome : Except Failure JobOutcome) :
    ¬ j.Ends (.event .connected) outcome := by
  have he : j.event? (.event .connected) = some .connected := rfl
  have hcommands : (j.session.handle .connected).2.commands = [] := rfl
  have hsays := @Event.not_says .connected (by simp)
  simp [ends_iff he, hcommands, hsays]

/-- **The first occurrence that ends a job** ends it in this way. -/
inductive EndsBy : Job → List (Nat × Occurrence) → Except Failure JobOutcome → Prop
  | here {j : Job} {now : Nat} {occurrence : Occurrence} {later : List (Nat × Occurrence)}
      {outcome : Except Failure JobOutcome} (h : j.Ends occurrence outcome) :
      EndsBy j ((now, occurrence) :: later) outcome
  | later {j : Job} {now : Nat} {occurrence : Occurrence} {later : List (Nat × Occurrence)}
      {outcome : Except Failure JobOutcome} (h : ∀ other, ¬ j.Ends occurrence other)
      (rest : EndsBy (j.step now occurrence).job later outcome) :
      EndsBy j ((now, occurrence) :: later) outcome

theorem not_endsBy_nil : ¬ j.EndsBy [] outcome := by
  rintro ⟨⟩

theorem endsBy_cons_iff_of_ends {other : Except Failure JobOutcome}
    (h : j.Ends occurrence other) :
    j.EndsBy ((now, occurrence) :: later) outcome ↔ j.Ends occurrence outcome := by
  constructor
  · rintro (hhere | ⟨hnot, -⟩)
    · exact hhere
    · exact absurd h (hnot other)
  · exact .here

theorem endsBy_cons_iff_of_not_ends (h : ∀ other, ¬ j.Ends occurrence other) :
    j.EndsBy ((now, occurrence) :: later) outcome ↔
      (j.step now occurrence).job.EndsBy later outcome := by
  constructor
  · rintro (hhere | ⟨-, hrest⟩)
    · exact absurd hhere (h outcome)
    · exact hrest
  · exact .later h

/-! ### What is accepted -/

/-- The segment that an occurrence brings and the session accepts, if there is one. -/
def arrival? (j : Job) (occurrence : Occurrence) : Option Segment :=
  (j.event? occurrence).bind j.session.arrival?

/-- The segments that are accepted in a run. -/
def accepted (j : Job) : List (Nat × Occurrence) → List Segment
  | [] => []
  | (now, occurrence) :: later =>
    let first := j.step now occurrence
    (j.arrival? occurrence).toList ++
      if first.ended.isSome then [] else first.job.accepted later

theorem accepted_cons_of_ended (h : (j.step now occurrence).ended = some outcome) :
    j.accepted ((now, occurrence) :: later) = (j.arrival? occurrence).toList := by
  simp [accepted, h]

theorem accepted_cons_of_going (h : (j.step now occurrence).ended = none) :
    j.accepted ((now, occurrence) :: later) =
      (j.arrival? occurrence).toList ++ (j.step now occurrence).job.accepted later := by
  simp [accepted, h]

/-! ### What is handed on -/

/-- **Every run of a job** hands over the submission at most once. -/
theorem hands_run (j : Job) (occurrences : List (Nat × Occurrence)) :
    j.Hands (j.run occurrences) := by
  induction occurrences generalizing j with
  | nil => exact .of_none rfl rfl rfl
  | cons first later ih =>
    obtain ⟨now, occurrence⟩ := first
    have hfirst := hands_step (j := j) now occurrence
    cases hended : (j.step now occurrence).ended with
    | some outcome => rwa [run_cons_of_ended hended]
    | none =>
      rw [run_cons_of_going hended]
      exact hfirst.following (ih _)

/-- What has been submitted stays submitted. -/
theorem Hands.submitted_eq {step : Step} (hands : j.Hands step) (h : j.submitted = true) :
    step.job.submitted = true := by
  have hcount := hands.count_eq
  rw [h, Bool.toNat_true] at hcount
  cases hs : step.job.submitted with
  | true => rfl
  | false =>
    rw [hs, Bool.toNat_false] at hcount
    omega

/-- The exports have heard what the sinks were told. -/
def Hears (j : Job) (step : Step) : Prop :=
  step.job.exports = (j.exports.hearAll step.notices).1

theorem Hears.following {first second : Step} (hfirst : j.Hears first)
    (hsecond : first.job.Hears second) : j.Hears (second.following first) := by
  unfold Hears at *
  rw [Step.following, Exports.hearAll_append, ← hfirst, ← hsecond]

theorem hears_reaction {step : Step} (reaction : j.Reaction now occurrence step)
    (h : j.submitted = true) : j.Hears step := by
  cases reaction with
  | submitted hnot _ => simp [h] at hnot
  | heard _ _ | ranOut _ | cancelled _ _ => rfl
  | notDue _ | again _ | stopped _ | graceOver _ | early _ => rfl

theorem hears_release (j : Job) : j.Hears j.release := rfl

/-- **A job that has submitted passes on** what its sinks are told. -/
theorem hears_step (now : Nat) (occurrence : Occurrence) (h : j.submitted = true) :
    j.Hears (j.step now occurrence) := by
  have reaction := hears_reaction (reaction_react j now occurrence) h
  have released := reaction.following (hears_release (j.react now occurrence).job)
  unfold step
  dsimp only
  split
  · split
    · exact released
    · exact reaction
  · split
    · exact released
    · exact reaction

theorem hears_run (h : j.submitted = true) (occurrences : List (Nat × Occurrence)) :
    j.Hears (j.run occurrences) := by
  induction occurrences generalizing j with
  | nil => rfl
  | cons first later ih =>
    obtain ⟨now, occurrence⟩ := first
    have hfirst := hears_step now occurrence h
    cases hended : (j.step now occurrence).ended with
    | some outcome => rwa [run_cons_of_ended hended]
    | none =>
      rw [run_cons_of_going hended]
      exact hfirst.following (ih ((hands_step now occurrence).submitted_eq h))

end Job

end Deposition
