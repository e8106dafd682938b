import Deposition.Proofs.Exchange.Basic
import Deposition.Proofs.Job.Reaction
import Deposition.Proofs.Job.Run

/-!
# What becomes of a submission

A job submits its configuration once, when the first connection comes up, and hands the message to
the connection without waiting. What becomes of the message is settled between the two tasks, and it
is settled by counting: a message is never copied, so what the job has handed over is on its way, or
was written, or was dropped – picked up while there was no socket, or written to one that broke.

The count has two sides.

* **The job** hands over the submission at most once, and nothing else that reads like it
  (`Deposition.Job.Hands`). Every reaction of a job is shown to do so, and a step is a reaction with
  the release of the exports after it. That no request and no cancellation can be mistaken for a
  submission is a fact about texts (`Deposition.ClientMessage.eq_submit_of_text_eq`).
* **The connection** writes or drops the oldest message when it picks it up. What a move can do
  about messages is listed in `Deposition.Client.Delivery`; the job has a say in one case only.

`Deposition.Client.Accounted` puts the two together, on the messages that are *not written*: those
dropped so far, followed by those on their way. A message that is dropped stays where it is in this
list, and one that is written leaves it.
-/

namespace Deposition

/-! ### The text of a submission -/

/-- The text of a submission begins with a brace. -/
theorem Configuration.toList_submissionText (c : Configuration) :
    ∃ rest, c.submissionText.toList = '{' :: rest := by
  simp [submissionText, submission, Json.compact, Json.record, Json.compactChars]

/-- **No other message reads like a submission.** -/
theorem ClientMessage.eq_submit_of_text_eq {message : ClientMessage} {c : Configuration}
    (h : message.text = c.submissionText) : ∃ payload, message = .submit payload := by
  obtain ⟨rest, hrest⟩ := c.toList_submissionText
  rw [← h] at hrest
  cases message with
  | submit payload => exact ⟨payload, rfl⟩
  | cancel => simp [text] at hrest
  | request id =>
    -- a request is written in digits
    simp only [text, Nat.toString_eq_repr, Nat.toList_repr] at hrest
    have hdigit : Char.isDigit '{' = true :=
      Nat.isDigit_of_mem_toDigits (by decide) (by decide) (hrest ▸ List.mem_cons_self)
    simp at hdigit

theorem submissions_eq_zero_iff {messages : List ClientMessage} :
    submissions messages = 0 ↔ ∀ payload, .submit payload ∉ messages := by
  rw [submissions, List.countP_eq_zero]
  constructor
  · intro h payload hmem
    exact h _ hmem rfl
  · intro h message hmem
    cases message with
    | submit payload => exact absurd hmem (h payload)
    | cancel | request _ => simp

namespace Job

variable {j : Job}

/-- **What a step of a job hands to the connection**: the submission, if it has not been handed over
before, and nothing else that reads like it. -/
structure Hands (j : Job) (step : Step) : Prop where
  /-- The configuration stays the same. -/
  configuration_eq : step.job.configuration = j.configuration
  /-- A submission is handed over at most once. -/
  count_eq : step.job.submitted.toNat = j.submitted.toNat + submissions step.sends
  /-- It is the one of the configuration. -/
  payload_eq : ∀ payload, .submit payload ∈ step.sends → payload = j.configuration.submissionText

/-- A step that hands no submission over. -/
theorem Hands.of_none {step : Step} (hc : step.job.configuration = j.configuration)
    (hs : step.job.submitted = j.submitted) (hnone : submissions step.sends = 0) :
    j.Hands step :=
  ⟨hc, by rw [hs, hnone, Nat.add_zero], fun payload hmem =>
    absurd hmem (submissions_eq_zero_iff.mp hnone payload)⟩

/-- First one step, then another. -/
theorem Hands.following {first second : Step} (hfirst : j.Hands first)
    (hsecond : first.job.Hands second) : j.Hands (second.following first) := by
  refine ⟨hsecond.configuration_eq.trans hfirst.configuration_eq, ?_, fun payload hmem => ?_⟩
  · rw [Step.following, submissions_append, hsecond.count_eq, hfirst.count_eq, Nat.add_assoc]
  · rcases List.mem_append.mp hmem with hmem | hmem
    · exact hfirst.payload_eq payload hmem
    · exact hfirst.configuration_eq ▸ hsecond.payload_eq payload hmem

/-- How a step ends the job, and which status is shown, is no matter of what is handed over. -/
theorem Hands.showing {step : Step} (h : j.Hands step) (shown : JobStatus)
    (ended : Option (Except Failure JobOutcome)) :
    j.Hands { step with job := { step.job with shown }, ended } :=
  ⟨h.configuration_eq, h.count_eq, h.payload_eq⟩

theorem hands_handle (now : Nat) (e : Event) : j.Hands (j.absorb now (j.session.handle e)) :=
  .of_none rfl rfl (Exchange.submissions_handle j.session e)

theorem hands_submits {now : Nat} {step : Step} (submits : j.Submits now step)
    (h : j.submitted = false) : j.Hands step := by
  cases submits with
  | failed _ hsends hsubmitted hconfiguration =>
    exact .of_none hconfiguration hsubmitted (by rw [hsends]; rfl)
  | sent _ _ _ _ => exact ⟨rfl, by rw [h]; rfl, by simp⟩

theorem hands_reaction {now : Nat} {occurrence : Occurrence} {step : Step}
    (reaction : j.Reaction now occurrence step) : j.Hands step := by
  cases reaction with
  | heard e _ => exact hands_handle now e
  | submitted h submits =>
    have first := hands_handle (j := j) now .connected
    exact first.following (hands_submits submits h)
  | @ranOut timer _ _ =>
    exact .of_none rfl rfl (Exchange.submissions_handle j.session (.timer timer))
  | @cancelled step _ hs =>
    obtain ⟨session, effects⟩ := step
    obtain ⟨-, -, hcommands, -⟩ := Session.cancel_eq_ok hs
    refine .of_none rfl rfl ?_
    simp only [absorb, hcommands]
    rfl
  | stopped _ | graceOver _ | notDue _ | again _ | early _ => exact .of_none rfl rfl rfl

/-- The exports are released and nothing is handed over. -/
theorem hands_release : j.Hands j.release := .of_none rfl rfl rfl

/-- **Every step of a job** hands over the submission at most once. -/
theorem hands_step (now : Nat) (occurrence : Occurrence) : j.Hands (j.step now occurrence) := by
  have reaction := hands_reaction (reaction_react j now occurrence)
  have shown := reaction.showing (j.react now occurrence).job.session.status none
  unfold step
  dsimp only
  split
  · split
    · exact (reaction.following hands_release).showing _ _
    · exact reaction
  · next hgoing =>
    split
    · exact (shown.following hands_release).showing _ _
    · rw [← hgoing] at shown
      exact shown

end Job

/-! ### What is written -/

/-- Nothing is written but a message that is picked up while the socket is up. -/
theorem Connection.not_write {c : Connection} {input : Input}
    (h : ∀ message, c = .up → input ≠ .outbound message true) (text : String) :
    .write text ∉ (c.step input).2 := by
  cases c with
  | up =>
    cases input with
    | outbound message writable =>
      cases writable with
      | false => simp [step]
      | true => exact absurd rfl (h message rfl)
    | received message => simp [step]
    | _ => simp [step]
  | _ => cases input <;> simp [step]

namespace Client

variable {c : Client}

/-- The message that a move makes the connection drop: it is picked up, and not written. -/
def dropped (c : Client) : Move → List ClientMessage
  | .pickUp writable =>
    if c.outcome.isNone && c.connection.picksUp && !(c.connection == .up && writable) then
      c.outbound.head?.toList
    else []
  | _ => []

/-- The messages that are dropped in a run. -/
def allDropped (c : Client) : List (Nat × Move) → List ClientMessage
  | [] => []
  | (now, m) :: moves => c.dropped m ++ (c.move now m).1.allDropped moves

theorem allDropped_concat (c : Client) (moves : List (Nat × Move)) (now : Nat) (m : Move) :
    c.allDropped (moves ++ [(now, m)]) = c.allDropped moves ++ (c.run moves).1.dropped m := by
  induction moves generalizing c with
  | nil => simp [allDropped]
  | cons first moves ih =>
    obtain ⟨time, first⟩ := first
    simp [allDropped, ih, run_cons]

/-- **What a move does about the messages of a job**: the client afterwards, what the connection
does, and what is dropped. -/
inductive Delivery (job : Job) (outbound : List ClientMessage) :
    Client → List Connection.Action → List ClientMessage → Prop
  /-- They stay where they are. -/
  | none {d : Client} {actions : List Connection.Action} (hjob : d.job = job)
      (hout : d.outbound = outbound) (hw : ∀ text, .write text ∉ actions) :
      Delivery job outbound d actions []
  /-- The job takes a step and hands over what it sends. -/
  | handed {d : Client} {actions : List Connection.Action} (now : Nat)
      (occurrence : Job.Occurrence) (hjob : d.job = (job.step now occurrence).job)
      (hout : d.outbound = outbound ++ (job.step now occurrence).sends)
      (hw : ∀ text, .write text ∉ actions) : Delivery job outbound d actions []
  /-- The oldest one is written. -/
  | written {d : Client} {message : ClientMessage} (hjob : d.job = job)
      (hout : outbound = message :: d.outbound) :
      Delivery job outbound d [.write message.text] []
  /-- The oldest one is dropped. -/
  | dropped {d : Client} {actions : List Connection.Action} {message : ClientMessage}
      (hjob : d.job = job) (hout : outbound = message :: d.outbound)
      (hw : ∀ text, .write text ∉ actions) : Delivery job outbound d actions [message]

theorem delivery_connectionStep (c : Client) {input : Connection.Input}
    (h : ∀ message writable, input ≠ .outbound message writable) :
    Delivery c.job c.outbound (c.connectionStep input).1 (c.connectionStep input).2 [] :=
  .none rfl rfl (Connection.not_write fun message _ => h message true)

theorem delivery_jobStep (c : Client) (now : Nat) (occurrence : Job.Occurrence) :
    Delivery c.job c.outbound (c.jobStep now occurrence).1 (c.jobStep now occurrence).2 [] := by
  unfold jobStep
  dsimp only
  split
  · exact .handed now occurrence rfl rfl (Connection.not_write (by simp))
  · exact .handed now occurrence rfl rfl (by simp)

theorem delivery_pickUp (hgoing : c.outcome = none) (writable : Bool) :
    Delivery c.job c.outbound (c.pickUp writable).1 (c.pickUp writable).2
      (c.dropped (.pickUp writable)) := by
  unfold pickUp
  split
  · next hout =>
    have hdropped : c.dropped (.pickUp writable) = [] := by simp [dropped, hout]
    rw [hdropped]
    exact .none rfl rfl (by simp)
  · next message rest hout =>
    split
    · next hpicks =>
      by_cases hwrites : c.connection = .up ∧ writable = true
      · obtain ⟨hup, rfl⟩ := hwrites
        have hdropped : c.dropped (.pickUp true) = [] := by simp [dropped, hup]
        rw [hdropped]
        simp only [connectionStep, hup]
        exact .written rfl hout
      · have hdropped : c.dropped (.pickUp writable) = [message] := by
          simp_all [dropped]
        rw [hdropped]
        refine .dropped rfl hout (Connection.not_write fun message' hup => ?_)
        simp_all
    · next hpicks =>
      have hdropped : c.dropped (.pickUp writable) = [] := by simp [dropped, hpicks]
      rw [hdropped]
      exact .none rfl rfl (by simp)

/-- **Every message of the job is written or dropped when it is picked up**, and the job sends what
a step of it sends. -/
theorem delivery_move (c : Client) (now : Nat) (m : Move) :
    Delivery c.job c.outbound (c.move now m).1 (c.move now m).2 (c.dropped m) := by
  cases hgoing : c.outcome with
  | some outcome =>
    have hdropped : c.dropped m = [] := by cases m <;> simp [dropped, hgoing]
    rw [hdropped, move_of_outcome (by simp [hgoing])]
    exact .none rfl rfl (by simp)
  | none =>
    unfold move
    rw [if_neg (by simp [hgoing])]
    cases m with
    | pickUp writable => exact delivery_pickUp hgoing writable
    | check | accepted | refused | received _ | lost =>
      exact delivery_connectionStep c (by simp)
    | timer | interrupt | graceOver => exact delivery_jobStep c now _
    | lookAt =>
      dsimp only [lookAt]
      split
      · exact .none rfl rfl (by simp)
      · next event rest _ => exact delivery_jobStep { c with inbound := rest } now (.event event)

/-! ### What there is of a submission -/

/-- **The submission of a job is accounted for**: as soon as the job has submitted, it is once among
the messages that are not written, or is written once. -/
structure Accounted (configuration : Configuration) (job : Job) (unwritten : List ClientMessage)
    (actions : List Connection.Action) : Prop where
  /-- The job is the one of this configuration. -/
  configuration_eq : job.configuration = configuration
  /-- The submission is in one place, or in none. -/
  count_eq : submissions unwritten + actions.count (.write configuration.submissionText) =
    job.submitted.toNat
  /-- There is no other submission. -/
  payload_eq : ∀ payload, .submit payload ∈ unwritten → payload = configuration.submissionText

namespace Accounted

variable {configuration : Configuration} {job : Job} {unwritten : List ClientMessage}
  {done actions : List Connection.Action}

/-- What is done without writing is of no account. -/
theorem unwriting (h : Accounted configuration job unwritten done)
    (hw : ∀ text, .write text ∉ actions) :
    Accounted configuration job unwritten (done ++ actions) := by
  refine ⟨h.configuration_eq, ?_, h.payload_eq⟩
  rw [List.count_append, List.count_eq_zero.mpr (hw _), Nat.add_zero, h.count_eq]

/-- The job hands over what a step of it sends. -/
theorem handed (h : Accounted configuration job unwritten done) (now : Nat)
    (occurrence : Job.Occurrence) :
    Accounted configuration (job.step now occurrence).job
      (unwritten ++ (job.step now occurrence).sends) done := by
  have hands := Job.hands_step (j := job) now occurrence
  refine ⟨hands.configuration_eq.trans h.configuration_eq, ?_, fun payload hmem => ?_⟩
  · have hcount := h.count_eq
    rw [submissions_append, hands.count_eq]
    omega
  · rcases List.mem_append.mp hmem with hmem | hmem
    · exact h.payload_eq payload hmem
    · exact h.configuration_eq ▸ hands.payload_eq payload hmem

/-- A message is written. -/
theorem writing {message : ClientMessage} {before behind : List ClientMessage}
    (h : Accounted configuration job (before ++ message :: behind) done) :
    Accounted configuration job (before ++ behind) (done ++ [.write message.text]) := by
  refine ⟨h.configuration_eq, ?_, fun payload hmem => h.payload_eq payload ?_⟩
  · -- the message is a submission exactly if what is written reads like it
    have htext : submissions [message] =
        [Connection.Action.write message.text].count (.write configuration.submissionText) := by
      by_cases hm : message.text = configuration.submissionText
      · obtain ⟨payload, rfl⟩ := ClientMessage.eq_submit_of_text_eq hm
        simp [submissions, hm]
      · rw [List.count_eq_zero.mpr (by simpa using fun he => hm he.symm)]
        refine submissions_eq_zero_iff.mpr fun payload hmem => hm ?_
        obtain rfl : .submit payload = message := by simpa using hmem
        exact h.payload_eq payload (by simp)
    have hcount := h.count_eq
    rw [List.append_cons, submissions_append, submissions_append] at hcount
    rw [List.count_append, ← htext, submissions_append]
    omega
  · rcases List.mem_append.mp hmem with hmem | hmem <;> simp [hmem]

/-- **Every move keeps the account.** -/
theorem delivery {dropped droppedNow outbound : List ClientMessage} {d : Client}
    (h : Accounted configuration job (dropped ++ outbound) done)
    (delivery : Delivery job outbound d actions droppedNow) :
    Accounted configuration d.job (dropped ++ droppedNow ++ d.outbound) (done ++ actions) := by
  cases delivery with
  | none hjob hout hw =>
    rw [hjob, hout, List.append_nil]
    exact h.unwriting hw
  | handed now occurrence hjob hout hw =>
    rw [hjob, hout, List.append_nil, ← List.append_assoc]
    exact (h.handed now occurrence).unwriting hw
  | written hjob hout =>
    rw [hjob, List.append_nil]
    exact (hout ▸ h).writing
  | dropped hjob hout hw =>
    rw [hjob, List.append_assoc, List.singleton_append, ← hout]
    exact h.unwriting hw

/-- **A job that has submitted has its submission written exactly if it is nowhere else.** -/
theorem unwritten_iff (h : Accounted configuration job unwritten done)
    (hsubmitted : job.submitted = true) :
    .write configuration.submissionText ∉ done ↔
      .submit configuration.submissionText ∈ unwritten := by
  have hcount := h.count_eq
  rw [hsubmitted, Bool.toNat_true] at hcount
  have hmem : submissions unwritten = 0 ↔ .submit configuration.submissionText ∉ unwritten := by
    rw [submissions_eq_zero_iff]
    refine ⟨fun hnone => hnone _, fun hnot payload hmem => hnot ?_⟩
    exact h.payload_eq payload hmem ▸ hmem
  rw [← List.count_eq_zero, ← not_iff_not, ← hmem]
  omega

end Accounted

/-- **What has become of a submission**, after any moves: before the job has submitted there is
none, and from then on it is in one place – on its way, dropped or written. -/
theorem accounted_run (preferences : Preferences) (configuration : Configuration)
    (options : JobOptions) (files : Files) (moves : List (Nat × Move)) :
    let c := start preferences configuration options files
    Accounted configuration (c.run moves).1.job
      (c.allDropped moves ++ (c.run moves).1.outbound) (c.run moves).2 := by
  intro c
  refine moves_induction (c := c)
    (P := fun ms d actions => Accounted configuration d.job (c.allDropped ms ++ d.outbound) actions)
    moves ⟨rfl, rfl, ?_⟩ fun ms now m _ ih => ?_
  · simp [c, start, allDropped]
  · rw [allDropped_concat]
    exact ih.delivery (delivery_move _ now m)

end Client

end Deposition
