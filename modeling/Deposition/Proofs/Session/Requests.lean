import Deposition.Proofs.Session.Coherence

/-!
# How a session asks for segments

A session asks for one segment at a time, and no oftener than it has to. What makes this more than a
look at one handler is that a request is prepared in one event and sent in another: the download is
looked at, the next segment is put in flight and its delay starts, and only when the delay runs out
is the request sent. In between anything can happen. The segment may arrive without having been
asked for, so that the delay that runs out is the one of the segment before; the server may say that
the segment is not there; the connection may go; and timers may run out that nobody has started.

What a deed can do to the requests is one of three things (`Deposition.Session.Pace`): nothing is
asked for, the next segment is asked for, or the next segment arrives. Two facts then carry every
statement about a job (`Deposition.Session.Disciplined`).

* **What is asked for is next.** The segment that comes next is one more than the number of segments
  accepted in the job, and nothing but this segment is ever asked for; so the ids never go back.
* **A request has to be owed.** While the next segment is in flight and its delay is not running, a
  request for it has been sent (`Deposition.Session.outstanding`). This flag pays for one request,
  and it has to be paid for: only by the answer that the segment is not there
  (`Deposition.Session.clears`), which takes the segment out of flight, or by an expiry that asks
  again (`Deposition.Session.repeats`), can a second request for the same segment come about.

The last id is followed by itself, so a job that gets so far would accept it for ever; that is why
the number of segments that are accepted is bounded.
-/

namespace Deposition

/-- The segment that a command asks for, if it asks for one. -/
def Command.request? : Command → Option UInt32
  | .send (.request id) => some id
  | _ => none

/-- The segments that commands ask for, in order. -/
def requests (commands : List Command) : List UInt32 := commands.filterMap Command.request?

section Requests

variable {commands : List Command} {id : UInt32}

@[simp] theorem requests_append (more : List Command) :
    requests (commands ++ more) = requests commands ++ requests more := by
  simp [requests]

@[simp] theorem requests_cancelTimer (timer : Timer) :
    requests (.cancelTimer timer :: commands) = requests commands := rfl

theorem mem_requests : id ∈ requests commands ↔ .send (.request id) ∈ commands := by
  simp only [requests, List.mem_filterMap]
  constructor
  · rintro ⟨command, hmem, hrequest⟩
    obtain rfl : command = .send (.request id) := by
      unfold Command.request? at hrequest
      split at hrequest <;> simp_all
    exact hmem
  · exact fun hmem => ⟨_, hmem, rfl⟩

end Requests

namespace Session

variable {σ : Type} {s u u' : Session σ} {deeds : List (Deed σ)} {deed : Deed σ} {id : UInt32}
  {ids asked : List UInt32}

/-! ### What is counted -/

/-- Whether a segment is accepted: a job runs, the segment can be read, it is the one in flight, and
it belongs to the job. -/
def accepts (s : Session σ) : Deed σ → Bool
  | .event (.binary buffer) =>
    match Segment.decode buffer with
    | .ok segment =>
      s.running && s.flow.expects segment.id && (s.trajectory.mismatch? segment).isNone
    | .error _ => false
  | _ => false

/-- Whether the server says that this segment is not there, and takes it out of flight by that. -/
def clears (id : UInt32) (s : Session σ) : Deed σ → Bool
  | .event (.text text) =>
    match ServerMessage.parse text with
    | .ok (.segmentNotReady missing) => s.running && missing == id && s.flow.expects id
    | _ => false
  | _ => false

/-- Whether the time to ask again runs out while this segment is in flight. -/
def repeats (id : UInt32) (s : Session σ) : Deed σ → Bool
  | .event (.timer .retry) => s.running && s.flow.waiting && s.flow.next == id
  | _ => false

/-- The deeds announce this segment as the latest one. -/
def Announced (deeds : List (Deed σ)) (id : UInt32) : Prop :=
  ∃ text available, .event (.text text) ∈ deeds ∧
    ServerMessage.parse text = .ok (.newFrames available) ∧ available.latest = id

/-- Whether the next segment is in flight and has been asked for. -/
def outstanding (s : Session σ) : Bool := s.flow.waiting && !s.armed

theorem Announced.mono {more : List (Deed σ)} (h : Announced deeds id) (hsub : deeds ⊆ more) :
    Announced more id := by
  obtain ⟨text, available, hmem, hp, hlatest⟩ := h
  exact ⟨text, available, hsub hmem, hp, hlatest⟩

theorem accepts_event_iff {e : Event} : s.accepts (.event e) = true ↔
    ∃ buffer segment, e = .binary buffer ∧ Segment.decode buffer = .ok segment ∧
      s.running = true ∧ s.flow.expects segment.id = true ∧
      s.trajectory.mismatch? segment = none := by
  cases e with
  | binary buffer => cases hd : Segment.decode buffer <;> simp [accepts, hd, and_assoc]
  | _ => simp [accepts]

/-! ### One deed -/

/-- **What a deed can do to the requests of a job**: the session afterwards, and the segments that
are asked for. -/
inductive Pace (s : Session σ) (deed : Deed σ) (s' : Session σ) : List UInt32 → Prop
  /-- Nothing is asked for. More may be announced; and what is outstanding stays so, unless the
  server says that it is not there. -/
  | quiet (haccepts : s.accepts deed = false) (hnext : s'.flow.next = s.flow.next)
      (hlatest : s'.flow.latest = s.flow.latest ∨ Announced [deed] s'.flow.latest)
      (howed : s.outstanding.toNat ≤
        s'.outstanding.toNat + (s.clears s.flow.next deed).toNat) : Pace s deed s' []
  /-- A timer runs out and the segment in flight is asked for. It is then outstanding, and if it was
  before, it is asked for again. -/
  | asks {timer : Timer} (htimer : deed = .event (.timer timer)) (hw : s.flow.waiting = true)
      (hflow : s'.flow = s.flow)
      (howed : s.outstanding.toNat + 1 ≤
        s'.outstanding.toNat + (s.repeats s.flow.next deed).toNat) :
      Pace s deed s' [s.flow.next]
  /-- The segment in flight arrives. -/
  | arrives (haccepts : s.accepts deed = true) (hnext : s'.flow.next = s.flow.received.next)
      (hlatest : s'.flow.latest = s.flow.latest) : Pace s deed s' []

@[simp] theorem accepts_noted (s : Session σ) (e : Event) :
    (s.noted e).accepts (.event e) = s.accepts (.event e) := by
  cases e <;> simp [accepts]

/-- What an event does to every session is no matter of requests. -/
theorem Pace.of_noted {e : Event} {s' : Session σ} (pace : Pace (s.noted e) (.event e) s' ids) :
    Pace s (.event e) s' ids := by
  have haccepts := accepts_noted s e
  have hclears : (s.noted e).clears s.flow.next (.event e) = s.clears s.flow.next (.event e) := by
    cases e <;> simp [clears]
  have hrepeats : (s.noted e).repeats s.flow.next (.event e) =
      s.repeats s.flow.next (.event e) := by
    cases e <;> simp [repeats]
  have hout : (s.noted e).outstanding = s.outstanding := by simp [outstanding]
  have hflow := flow_noted s e
  cases pace with
  | quiet ha hnext hlatest howed =>
    rw [hflow] at hnext hlatest howed
    exact .quiet (haccepts ▸ ha) hnext hlatest (hout ▸ hclears ▸ howed)
  | asks htimer hw hsame howed =>
    rw [hflow] at hw hsame howed ⊢
    exact .asks htimer hw hsame (hout ▸ hrepeats ▸ howed)
  | arrives ha hnext hlatest =>
    rw [hflow] at hnext hlatest
    exact .arrives (haccepts ▸ ha) hnext hlatest

/-- **A look at the download asks for nothing**, and leaves outstanding what was: a segment is put
in flight only where none was. -/
theorem Look.pace {s' : Session σ} {commands : List Command} (look : s.Look s' commands)
    (hw : s.flow.waiting = true → s.flow.next ≤ s.flow.latest) :
    requests commands = [] ∧ s'.flow.next = s.flow.next ∧ s'.flow.latest = s.flow.latest ∧
      s.outstanding.toNat ≤ s'.outstanding.toNat := by
  have hcaught (h : s.flow.latest < s.flow.next) : s.flow.waiting = false := by
    by_contra hne
    exact UInt32.not_le.mpr h (hw (by simpa using hne))
  cases look with
  | caughtUp h _ => exact ⟨rfl, rfl, rfl, by simp [outstanding, hcaught h]⟩
  | finished h _ => exact ⟨rfl, rfl, rfl, by simp [outstanding, hcaught h]⟩
  | inFlight _ _ => exact ⟨rfl, rfl, rfl, Nat.le_refl _⟩
  | requested _ hw => exact ⟨rfl, rfl, rfl, by simp [outstanding, hw]⟩

/-- A job that is stopped asks for nothing more. -/
theorem outstanding_le_stopped (s : Session σ) :
    s.outstanding.toNat ≤ s.stopped.outstanding.toNat := by
  simp only [outstanding, stopped]
  cases s.flow.waiting <;> cases s.armed <;> decide

/-- What a session ignores is not counted as a segment. -/
theorem Ignores.accepts_eq_false {e : Event} (h : s.Ignores e) :
    s.accepts (.event e) = false := by
  rw [Bool.eq_false_iff]
  intro haccepts
  obtain ⟨buffer, segment, rfl, hd, hr, he, hm⟩ := accepts_event_iff.mp haccepts
  cases h with
  | resting hrest => simp [hr] at hrest
  | unwanted h => exact h segment hd he hm

/-- **An event keeps the pace.** -/
theorem Turn.pace {e : Event} {s' : Session σ} {commands : List Command}
    {notices : List (Notice σ)} (turn : s.Turn e s' commands notices) (h : s.Coherent) :
    Pace s (.event e) s' (requests commands) := by
  cases turn with
  | ignored hi => exact .quiet hi.accepts_eq_false rfl (.inl rfl) (Nat.le_add_right _ _)
  | @announced text available s' commands hr hp look =>
    -- what is announced is at least what was, so what is in flight is still within it
    obtain ⟨hrequests, hnext, hlatest, howed⟩ := look.pace fun hw => by
      have := h.waiting_le hw
      simp only [UInt32.le_iff_toNat_le, Flow.toNat_latest_announce, Flow.next_announce] at this ⊢
      omega
    rw [hrequests]
    refine .quiet rfl hnext ?_ (Nat.le_add_right_of_le howed)
    rw [hlatest]
    simp only [Flow.announce]
    split
    · exact .inr ⟨text, available, by simp, hp, rfl⟩
    · exact .inl rfl
  | notReady hr hp he =>
    obtain ⟨-, rfl⟩ := Flow.expects_iff.mp he
    refine .quiet rfl rfl (.inl rfl) ?_
    simp [outstanding, clears, hp, hr, he, Bool.toNat_le]
  | cancelled _ _ =>
    exact .quiet rfl rfl (.inl rfl) (Nat.le_add_right_of_le (outstanding_le_stopped s))
  | failed _ _ =>
    exact .quiet rfl rfl (.inl rfl) (Nat.le_add_right_of_le (outstanding_le_stopped s))
  | accepted hr hd he hm look =>
    obtain ⟨hrequests, hnext, hlatest, -⟩ := look.pace (by simp [appending, Flow.received])
    rw [requests_cancelTimer, hrequests]
    exact .arrives (by simp [accepts, hd, hr, he, hm]) hnext hlatest
  | delayOver _ =>
    cases hw : s.flow.waiting <;> cases ha : s.armed
    · exact .quiet rfl rfl (.inl rfl) (by simp [outstanding, hw])
    · exact .quiet rfl rfl (.inl rfl) (by simp [outstanding, hw])
    · exact .quiet rfl rfl (.inl rfl) (by simp [outstanding, hw, ha])
    · exact .asks rfl hw rfl (by simp [outstanding, hw, ha])
  | askedAgain hr hw => exact .asks rfl hw rfl (by simp [repeats, hr, hw])
  | lookedAgain _ _ look =>
    obtain ⟨hrequests, hnext, hlatest, howed⟩ := look.pace h.waiting_le
    rw [hrequests]
    exact .quiet rfl hnext (.inl hlatest) (Nat.le_add_right_of_le howed)

/-- **Every deed keeps the pace**, but for a submission that starts over. -/
theorem Answer.pace {s' : Session σ} {commands : List Command} {notices : List (Notice σ)}
    (answer : s.Answer deed s' commands notices) (h : s.Coherent)
    (hsubmit : ∀ payload, .send (.submit payload) ∉ commands) :
    Pace s deed s' (requests commands) := by
  cases answer with
  | notSubmitted _ => exact .quiet rfl rfl (.inl rfl) (Nat.le_add_right _ _)
  | @submitted c _ _ => exact absurd (by simp) (hsubmit c.submissionText)
  | notCancelled _ => exact .quiet rfl rfl (.inl rfl) (Nat.le_add_right _ _)
  | cancelled _ =>
    exact .quiet rfl rfl (.inl rfl) (Nat.le_add_right_of_le (outstanding_le_stopped s))
  | handled e => exact ((turn_handle s e).pace (h.noted e)).of_noted
  | registered _ => exact .quiet rfl rfl (.inl rfl) (Nat.le_add_right _ _)
  | released => exact .quiet rfl rfl (.inl rfl) (Nat.le_add_right _ _)

/-! ### A whole job -/

/-- How many requests for a segment are paid for, beyond the first. -/
def paid (s : Session σ) (id : UInt32) (deeds : List (Deed σ)) : Nat :=
  s.tally (clears id) deeds + s.tally (repeats id) deeds

/-- **The requests of a job so far**: the session that has come of the deeds, and the segments that
were asked for. -/
structure Disciplined (s : Session σ) (deeds : List (Deed σ)) (u : Session σ)
    (asked : List UInt32) : Prop where
  /-- The next segment is the one after those accepted. -/
  next_eq : u.flow.next.toNat = s.tally accepts deeds + 1
  /-- The latest segment was announced, if there is one. -/
  announced : u.flow.latest = 0 ∨ Announced deeds u.flow.latest
  /-- The ids do not go back. -/
  sorted : asked.Pairwise (· ≤ ·)
  /-- No segment was asked for that comes after the next one. -/
  le_next : ∀ id ∈ asked, id ≤ u.flow.next
  /-- A segment was asked for once, and beyond that as often as was paid for. -/
  count_le : ∀ id, asked.count id ≤ 1 + s.paid id deeds
  /-- The first request for the next segment is still to come, unless it is outstanding. -/
  count_next_le : asked.count u.flow.next ≤ u.outstanding.toNat + s.paid u.flow.next deeds

theorem tally_le_append (kind : Session σ → Deed σ → Bool) {more : List (Deed σ)} :
    s.tally kind deeds ≤ s.tally kind (deeds ++ more) := by
  rw [tally_append]
  exact Nat.le_add_right _ _

theorem paid_le_append {more : List (Deed σ)} : s.paid id deeds ≤ s.paid id (deeds ++ more) :=
  Nat.add_le_add (tally_le_append _) (tally_le_append _)

theorem Announced.concat (h : Announced deeds id) : Announced (deeds ++ [deed]) id :=
  h.mono (List.subset_append_left _ _)

/-- Before anything is done, nothing is asked for. -/
theorem disciplined_start (s₀ : Session σ) : Disciplined s₀.started [] s₀.started [] :=
  ⟨rfl, .inl rfl, .nil, by simp, by simp, by simp⟩

/-- **One deed more.** -/
theorem Disciplined.step (h : s.Disciplined deeds u asked) (hrun : (s.run deeds).1 = u)
    (pace : Pace u deed u' ids) (hfew : s.tally accepts (deeds ++ [deed]) < maxWord) :
    s.Disciplined (deeds ++ [deed]) u' (asked ++ ids) := by
  have hcount (id : UInt32) : asked.count id ≤ 1 + s.paid id (deeds ++ [deed]) :=
    Nat.le_trans (h.count_le id) (Nat.add_le_add_left paid_le_append 1)
  have hpaid : s.paid u.flow.next (deeds ++ [deed]) = s.paid u.flow.next deeds +
      (u.clears u.flow.next deed).toNat + (u.repeats u.flow.next deed).toNat := by
    simp only [paid, tally_concat, hrun]
    omega
  have hnext_eq := h.next_eq
  have hcount_next := h.count_next_le
  rw [tally_concat, hrun] at hfew
  cases pace with
  | quiet haccepts hnext hlatest howed =>
    rw [List.append_nil]
    refine ⟨?_, ?_, h.sorted, hnext ▸ h.le_next, hcount, ?_⟩
    · simp [tally_concat, hrun, haccepts, hnext, hnext_eq]
    · rcases hlatest with hlatest | hlatest
      · rw [hlatest]
        exact h.announced.imp_right Announced.concat
      · exact .inr (hlatest.mono (List.subset_append_right _ _))
    · rw [hnext, hpaid]
      omega
  | asks htimer hw hflow howed =>
    have hcount_asked : (asked ++ [u.flow.next]).count u.flow.next =
        asked.count u.flow.next + 1 := by simp
    have haccepts : u.accepts deed = false := by simp [htimer, accepts]
    refine ⟨?_, ?_, ?_, ?_, fun id => ?_, ?_⟩
    · simp [tally_concat, hrun, haccepts, hflow, hnext_eq]
    · rw [hflow]
      exact h.announced.imp_right Announced.concat
    · exact List.pairwise_append.mpr ⟨h.sorted, List.pairwise_singleton _ _, fun id hid _ hlast =>
        List.mem_singleton.mp hlast ▸ h.le_next id hid⟩
    · intro id hid
      rw [hflow]
      rcases List.mem_append.mp hid with hid | hid
      · exact h.le_next id hid
      · exact UInt32.le_of_eq (List.mem_singleton.mp hid)
    · by_cases hid : id = u.flow.next
      · rw [hid, hcount_asked, hpaid]
        have := Bool.toNat_le u'.outstanding
        omega
      · simpa [List.count_cons, Ne.symm hid] using hcount id
    · rw [hflow, hcount_asked, hpaid]
      omega
  | arrives haccepts hnext hlatest =>
    rw [List.append_nil]
    -- the job is shorter than the greatest word, so the id after the next one is greater
    have hgreater : u'.flow.next.toNat = u.flow.next.toNat + 1 := by
      rw [haccepts] at hfew
      rw [hnext, Flow.toNat_next_received]
      simp only [Bool.toNat_true] at hfew
      omega
    have hlt (id : UInt32) (hid : id ∈ asked) : id < u'.flow.next := by
      have := UInt32.le_iff_toNat_le.mp (h.le_next id hid)
      rw [UInt32.lt_iff_toNat_lt]
      omega
    refine ⟨?_, ?_, h.sorted, fun id hid => UInt32.le_of_lt (hlt id hid), hcount, ?_⟩
    · simp [tally_concat, hrun, haccepts, hgreater, hnext_eq]
    · rw [hlatest]
      exact h.announced.imp_right Announced.concat
    · rw [List.count_eq_zero.mpr fun hmem => UInt32.lt_irrefl _ (hlt _ hmem)]
      exact Nat.zero_le _

/-- **The requests of a job**, as long as no other job is submitted. -/
theorem disciplined_run {s₀ : Session σ} (deeds : List (Deed σ))
    (hjob : ∀ payload, .send (.submit payload) ∉ (s₀.started.run deeds).2.commands)
    (hfew : s₀.started.tally accepts deeds < maxWord) :
    s₀.started.Disciplined deeds (s₀.started.run deeds).1
      (requests (s₀.started.run deeds).2.commands) := by
  refine deeds_induction (P := fun ds u so => (∀ payload, .send (.submit payload) ∉ so.commands) →
    s₀.started.tally accepts ds < maxWord → s₀.started.Disciplined ds u (requests so.commands))
    deeds (fun _ _ => disciplined_start s₀) ?_ hjob hfew
  intro ds d _ ih hjob hfew
  simp only [Effects.commands_followedBy, List.mem_append, not_or] at hjob
  rw [Effects.commands_followedBy, requests_append]
  have coherent : (s₀.started.run ds).1.Coherent := (Coherent.of_fresh _ _ _ _).run ds
  have pace := (answer_perform (s₀.started.run ds).1 d).pace coherent fun payload =>
    (hjob payload).2
  have disciplined := ih (fun payload => (hjob payload).1)
    (Nat.lt_of_le_of_lt (tally_le_append _) hfew)
  exact disciplined.step rfl pace hfew

/-- **What is asked for is next**, and was announced: whenever a job asks for a segment, a timer has
run out, and the segment is the one after those that were accepted until then. -/
theorem request_eq_next {s₀ : Session σ}
    (hjob : ∀ payload, .send (.submit payload) ∉ (s₀.started.run (deeds ++ [deed])).2.commands)
    (hfew : s₀.started.tally accepts deeds < maxWord)
    (hsent : .send (.request id) ∈ ((s₀.started.run deeds).1.perform deed).2.commands) :
    (∃ timer, deed = .event (.timer timer)) ∧ id.toNat = s₀.started.tally accepts deeds + 1 ∧
      ∃ latest, Announced deeds latest ∧ id ≤ latest := by
  simp only [run_concat, Effects.commands_followedBy, List.mem_append, not_or] at hjob
  have disciplined := disciplined_run deeds (fun payload => (hjob payload).1) hfew
  have coherent : (s₀.started.run deeds).1.Coherent := (Coherent.of_fresh _ _ _ _).run deeds
  have pace := (answer_perform (s₀.started.run deeds).1 deed).pace coherent fun payload =>
    (hjob payload).2
  have hmem := mem_requests.mpr hsent
  generalize requests _ = ids at pace hmem
  cases pace with
  | quiet _ _ _ _ => cases hmem
  | arrives _ _ _ => cases hmem
  | @asks timer htimer hw _ _ =>
    obtain rfl := List.mem_singleton.mp hmem
    refine ⟨⟨timer, htimer⟩, disciplined.next_eq, _, ?_, coherent.waiting_le hw⟩
    -- a segment is in flight, so something was announced
    refine disciplined.announced.resolve_left fun hzero => ?_
    have hle := UInt32.le_iff_toNat_le.mp (coherent.waiting_le hw)
    have hpos := coherent.next_pos
    rw [hzero, UInt32.toNat_zero] at hle
    omega

/-- **The discipline of requests.** Take everything that is done to a session from a submission that
was accepted until the next one, and let fewer segments be accepted than there are ids for. Then
requests are sent only when a timer runs out; each is for the segment after those accepted so far,
which is not beyond the latest one announced; the ids do not go back; and no segment is asked for
oftener than once, and once more for every answer that took it out of flight and every time that it
was asked for again. -/
theorem request_discipline {s₀ s : Session σ} {c : Configuration} {effects : Effects σ}
    (hsubmit : s₀.submit c = .ok (s, effects)) {deeds : List (Deed σ)}
    (hjob : ∀ payload, .send (.submit payload) ∉ (s.run deeds).2.commands)
    (hfew : s.tally accepts deeds < maxWord) :
    (∀ before deed after id, deeds = before ++ deed :: after →
      .send (.request id) ∈ ((s.run before).1.perform deed).2.commands →
        (∃ timer, deed = .event (.timer timer)) ∧ id.toNat = s.tally accepts before + 1 ∧
          ∃ latest, Announced before latest ∧ id ≤ latest) ∧
      (requests (s.run deeds).2.commands).Pairwise (· ≤ ·) ∧
      ∀ id, (requests (s.run deeds).2.commands).count id ≤
        1 + s.tally (clears id) deeds + s.tally (repeats id) deeds := by
  obtain ⟨rfl, -⟩ := submit_eq_ok hsubmit
  have disciplined := disciplined_run deeds hjob hfew
  refine ⟨?_, disciplined.sorted, fun id => ?_⟩
  · rintro before deed after id rfl hsent
    refine request_eq_next (fun payload hmem => hjob payload ?_) ?_ hsent
    · rw [List.append_cons, run_append]
      exact List.mem_append_left _ hmem
    · exact Nat.lt_of_le_of_lt (tally_le_append _) hfew
  · rw [Nat.add_assoc]
    exact disciplined.count_le id

/-- The requests of a job whose first segment arrives unasked, so that the delay that was started
for it runs out for the second one; this is not there yet, and is asked for once more. That is as
often as the bound allows. -/
theorem request_discipline_of_notReady :
    ∃ (s : Session Unit) (effects : Effects Unit) (deeds : List (Deed Unit)),
      submit { connected := true } ⟨[⟨"ETH", 1⟩], []⟩ = .ok (s, effects) ∧
      (∀ payload, .send (.submit payload) ∉ (s.run deeds).2.commands) ∧
      s.tally accepts deeds = 1 ∧
      requests (s.run deeds).2.commands = [2, 2] ∧
      (requests (s.run deeds).2.commands).Pairwise (· ≤ ·) ∧
      (requests (s.run deeds).2.commands).count 2 ≤
        1 + s.tally (clears 2) deeds + s.tally (repeats 2) deeds ∧
      s.tally (clears 2) deeds = 1 ∧ s.tally (repeats 2) deeds = 0 := by
  obtain ⟨buffer, hd⟩ : ∃ buffer, Segment.decode buffer = .ok ⟨1, [7], [[.origin]]⟩ :=
    ⟨Segment.encode 1 [7] [[.origin]], rfl⟩
  obtain ⟨text, hp⟩ : ∃ text, ServerMessage.parse text = .ok (.newFrames ⟨2, 3⟩) :=
    ⟨"new_frames\x7b\"l\":2,\"f\":3\x7d", by cbv⟩
  obtain ⟨missing, hmissing⟩ : ∃ text, ServerMessage.parse text = .ok (.segmentNotReady 2) :=
    ⟨"no_seg2", rfl⟩
  obtain ⟨s, effects, hs⟩ : ∃ s effects,
      submit ({ connected := true } : Session Unit) ⟨[⟨"ETH", 1⟩], []⟩ = .ok (s, effects) :=
    ⟨_, _, rfl⟩
  let deeds : List (Deed Unit) := [.event (.text text), .event (.binary buffer),
    .event (.timer .debounce), .event (.text missing), .event (.timer .retry),
    .event (.timer .debounce)]
  obtain ⟨hcommands, haccepts, hclears, hrepeats⟩ :
      (s.run deeds).2.commands = [.schedule .debounce 250, .schedule .retry 10000,
        .cancelTimer .retry, .schedule .debounce 250, .schedule .retry 10000, .send (.request 2),
        .schedule .debounce 250, .schedule .retry 10000, .send (.request 2)] ∧
      s.tally accepts deeds = 1 ∧ s.tally (clears 2) deeds = 1 ∧
      s.tally (repeats 2) deeds = 0 := by
    obtain ⟨rfl, -⟩ := submit_eq_ok hs
    simp only [deeds, run_cons, tally_cons, Session.perform, Session.handle, onText, onBinary, hp,
      hd, hmissing, accepts, clears, repeats]
    exact ⟨rfl, rfl, rfl, rfl⟩
  have hjob (payload : String) : .send (.submit payload) ∉ (s.run deeds).2.commands := by
    simp [hcommands]
  have hrequests : requests (s.run deeds).2.commands = [2, 2] := by
    rw [hcommands]
    rfl
  have hfew : s.tally accepts deeds < maxWord := by
    rw [haccepts]
    decide
  obtain ⟨-, hsorted, hcount⟩ := request_discipline hs hjob hfew
  exact ⟨s, effects, deeds, hs, hjob, haccepts, hrequests, hsorted, hcount 2, hclears, hrepeats⟩

end Session

end Deposition
