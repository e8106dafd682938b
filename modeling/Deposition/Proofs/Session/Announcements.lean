import Deposition.Proofs.Session.Coherence
import Mathlib.Data.List.Forall2
import Mathlib.Data.List.Perm.Basic

/-!
# Announcements in any order

A server announces what there is of a job whenever there is more, and announcements may overtake one
another or arrive twice. Noting them is easily seen not to mind: of the latest segments the greatest
is kept, and that the last one was among them is kept too (`Deposition.Flow.announceAll_congr`). But
a session does not only note an announcement; it looks at the download after each, and such a look
may put a request in flight, or end the job.

That this does no harm is the statement that to look after each announcement is to look once, after
all of them (`Deposition.Session.run_arrivals`). A look that finds nothing to do leaves the others
what they were. A look that makes a request leaves the others nothing to do, since what is in flight
was announced. And a look that ends the job leaves them a session that ignores them, which could go
wrong: the job might not have ended with another order. It ends only if there are no segments
(`Deposition.Session.eq_zero_of_finished`). As long as the last segment of a job has not been
announced there is one to come, so that what is next is in the job (`Deposition.Flow.Within`); and
once it has been announced, a job that runs has something left to fetch. In a job without segments
all announcements are the same.
-/

namespace Deposition

/-- **An announcement of a job of so many segments**: it gives their number, and announces none
beyond it. -/
structure Availability.Within (f : UInt32) (a : Availability) : Prop where
  /-- The number of segments. -/
  total_eq : a.total = f
  /-- The latest one that is there. -/
  latest_le : a.latest ≤ f

namespace Flow

variable {flow : Flow} {a b : Availability} {as bs : List Availability} {f : UInt32}

/-! ### Noting several announcements -/

/-- Notes several announcements. -/
def announceAll (flow : Flow) (as : List Availability) : Flow := as.foldl announce flow

/-- Of two announcements, it does not matter which one comes first. -/
theorem announce_comm (h : a.total = b.total) :
    (flow.announce a).announce b = (flow.announce b).announce a := by
  have hlatest : ((flow.announce a).announce b).latest = ((flow.announce b).announce a).latest := by
    rw [← UInt32.toNat_inj]
    simp only [toNat_latest_announce]
    omega
  have hcomplete : ((flow.announce a).announce b).complete =
      ((flow.announce b).announce a).complete := by
    simp only [announce]
    exact Bool.or_right_comm _ _ _
  rw [announce, announce] at hlatest hcomplete ⊢
  rw [mk.injEq]
  exact ⟨rfl, hlatest, h.symm, rfl, hcomplete⟩

/-- The same announcement once more says nothing new. -/
theorem announce_self : (flow.announce a).announce a = flow.announce a := by
  have hlatest : ((flow.announce a).announce a).latest = (flow.announce a).latest := by
    rw [← UInt32.toNat_inj]
    simp only [toNat_latest_announce]
    omega
  have hcomplete : ((flow.announce a).announce a).complete = (flow.announce a).complete := by
    simp [announce]
  rw [announce] at hlatest hcomplete ⊢
  rw [mk.injEq]
  exact ⟨rfl, hlatest, rfl, rfl, hcomplete⟩

/-- An announcement that comes last could have come first. -/
theorem announce_announceAll (h : ∀ b ∈ as, a.total = b.total) :
    (flow.announceAll as).announce a = (flow.announce a).announceAll as := by
  induction as generalizing flow with
  | nil => rfl
  | cons b as ih =>
    obtain ⟨hb, has⟩ := List.forall_mem_cons.mp h
    exact (ih has).trans (congrArg (announceAll · as) (announce_comm hb.symm))

/-- What was announced before says nothing new. -/
theorem announce_announceAll_of_mem (h : ∀ b ∈ as, a.total = b.total) (ha : a ∈ as) :
    (flow.announceAll as).announce a = flow.announceAll as := by
  induction as generalizing flow with
  | nil => cases ha
  | cons b as ih =>
    obtain ⟨hb, has⟩ := List.forall_mem_cons.mp h
    rcases List.mem_cons.mp ha with rfl | ha
    · refine (announce_announceAll has).trans ?_
      exact congrArg (announceAll · as) announce_self
    · exact ih has ha

theorem announceAll_append_of_subset (h : ∀ a ∈ as, a.total = f) (hsub : bs ⊆ as) :
    flow.announceAll (as ++ bs) = flow.announceAll as := by
  have happend : flow.announceAll (as ++ bs) = (flow.announceAll as).announceAll bs :=
    List.foldl_append
  rw [happend]
  induction bs with
  | nil => rfl
  | cons b bs ih =>
    obtain ⟨hb, hbs⟩ := List.cons_subset.mp hsub
    have htotal : ∀ a ∈ as, b.total = a.total := fun a ha => (h b hb).trans (h a ha).symm
    have hfirst : (flow.announceAll as).announceAll (b :: bs) =
        ((flow.announceAll as).announce b).announceAll bs := rfl
    rw [hfirst, announce_announceAll_of_mem htotal hb]
    exact ih hbs List.foldl_append

/-- **Only what is announced matters**, in whatever order and however often. -/
theorem announceAll_congr (h : ∀ a ∈ as, a.total = f) (hsame : ∀ a, a ∈ as ↔ a ∈ bs) :
    flow.announceAll as = flow.announceAll bs := by
  have hbs : ∀ b ∈ bs, b.total = f := fun b hb => h b ((hsame b).mpr hb)
  have hboth : ∀ a ∈ as ++ bs, a.total = f := fun a ha =>
    (List.mem_append.mp ha).elim (h a) (hbs a)
  have hcomm : flow.announceAll (as ++ bs) = flow.announceAll (bs ++ as) :=
    List.Perm.foldl_eq' List.perm_append_comm (fun a ha b hb _ =>
      announce_comm ((hboth a ha).trans (hboth b hb).symm)) _
  calc flow.announceAll as
    _ = flow.announceAll (as ++ bs) :=
        (announceAll_append_of_subset h fun b hb => (hsame b).mpr hb).symm
    _ = flow.announceAll (bs ++ as) := hcomm
    _ = flow.announceAll bs := announceAll_append_of_subset hbs fun a ha => (hsame a).mp ha

/-- Whether a segment is in flight is no matter of what is announced. -/
theorem announceAll_waiting (flow : Flow) (waiting : Bool) (as : List Availability) :
    announceAll { flow with waiting } as = { flow.announceAll as with waiting } := by
  induction as generalizing flow with
  | nil => rfl
  | cons a as ih => exact ih (flow.announce a)

theorem waiting_announceAll (flow : Flow) (as : List Availability) :
    (flow.announceAll as).waiting = flow.waiting := by
  induction as generalizing flow with
  | nil => rfl
  | cons a as ih => exact ih (flow.announce a)

theorem next_announceAll (flow : Flow) (as : List Availability) :
    (flow.announceAll as).next = flow.next := by
  induction as generalizing flow with
  | nil => rfl
  | cons a as ih => exact ih (flow.announce a)

theorem latest_le_announceAll (flow : Flow) (as : List Availability) :
    flow.latest.toNat ≤ (flow.announceAll as).latest.toNat := by
  induction as generalizing flow with
  | nil => exact Nat.le_refl _
  | cons a as ih =>
    refine Nat.le_trans ?_ (ih (flow.announce a))
    rw [toNat_latest_announce]
    exact Nat.le_max_left _ _

/-! ### What has been announced -/

/-- **A job of so many segments**, as far as it has been announced: none beyond it, and the last one
is noted as such. -/
structure Within (f : UInt32) (flow : Flow) : Prop where
  /-- None beyond it. -/
  latest_le : flow.latest.toNat ≤ f.toNat
  /-- As long as the job is not complete, more is to come, if there is anything. -/
  latest_lt : flow.complete = false → 0 < f.toNat → flow.latest.toNat < f.toNat

theorem within_new (f : UInt32) : Within f {} := ⟨Nat.zero_le _, fun _ h => h⟩

theorem Within.announce (h : flow.Within f) (ha : a.Within f) : (flow.announce a).Within f := by
  have hle := UInt32.le_iff_toNat_le.mp ha.latest_le
  have hlatest := h.latest_le
  refine ⟨?_, fun hcomplete hpos => ?_⟩
  · rw [toNat_latest_announce]
    omega
  · have hnot : ¬ (flow.complete = true ∨ a.latest = a.total) := by
      rw [← complete_announce, hcomplete]
      exact Bool.false_ne_true
    obtain ⟨hopen, hne⟩ := not_or.mp hnot
    have hlt := h.latest_lt (by simpa using hopen) hpos
    rw [ha.total_eq, ← UInt32.toNat_inj] at hne
    rw [toNat_latest_announce]
    omega

end Flow

namespace Session

variable {σ : Type} {s s' t : Session σ} {e : Event} {commands : List Command}
  {notices : List (Notice σ)} {f : UInt32} {a : Availability} {as bs : List Availability}

/-! ### Runs with announcements of one job -/

/-- What has been announced is not changed by a look at the download. -/
theorem Look.within (look : s.Look s' commands) (h : s.flow.Within f) : s'.flow.Within f := by
  cases look with
  | caughtUp | finished | requested => exact ⟨h.latest_le, h.latest_lt⟩
  | inFlight => exact h

/-- **A turn** keeps within a job, if what it announces does. -/
theorem Turn.within (turn : s.Turn e s' commands notices) (h : s.flow.Within f)
    (he : ∀ text a, e = .text text → ServerMessage.parse text = .ok (.newFrames a) → a.Within f) :
    s'.flow.Within f := by
  cases turn with
  | ignored _ => exact h
  | announced _ hp look => exact look.within (h.announce (he _ _ rfl hp))
  | notReady => exact ⟨h.latest_le, h.latest_lt⟩
  | cancelled => exact h
  | failed => exact h
  | accepted _ _ _ _ look =>
    exact look.within (s := s.appending _) ⟨h.latest_le, h.latest_lt⟩
  | delayOver => exact h
  | askedAgain => exact h
  | lookedAgain _ _ look => exact look.within h

/-- **So does whatever is done to a session.** -/
theorem Answer.within {deed : Deed σ} (answer : s.Answer deed s' commands notices)
    (h : s.flow.Within f) (hdeed : ∀ text a, deed = .event (.text text) →
      ServerMessage.parse text = .ok (.newFrames a) → a.Within f) :
    s'.flow.Within f := by
  cases answer with
  | notSubmitted _ => exact h
  | submitted _ => exact Flow.within_new f
  | notCancelled _ => exact h
  | cancelled _ => exact h
  | handled e =>
    refine (turn_handle s e).within (by rwa [flow_noted]) fun text a he hp => ?_
    exact hdeed text a (by rw [he]) hp
  | registered _ => exact h
  | released => exact h

theorem within_run {deeds : List (Deed σ)} (h : s.flow.Within f)
    (hdeeds : ∀ text a, .event (.text text) ∈ deeds →
      ServerMessage.parse text = .ok (.newFrames a) → a.Within f) :
    (s.run deeds).1.flow.Within f :=
  run_induction (P := fun t _ => t.flow.Within f) rfl h fun deed hdeed u _ hu =>
    (answer_perform u deed).within hu fun text a he => hdeeds text a (he ▸ hdeed)

/-! ### Looking once -/

/-- The session when it has noted several announcements, and not yet looked at the download. -/
def hearing (s : Session σ) (as : List Availability) : Session σ :=
  { s with pending := false, flow := s.flow.announceAll as }

/-- A text that announces segments. -/
def Announces (text : String) (a : Availability) : Prop :=
  ServerMessage.parse text = .ok (.newFrames a)

/-- What happens to a session when texts arrive. -/
def arrivals (texts : List String) : List (Deed σ) := texts.map fun text => .event (.text text)

theorem evaluate_of_inFlight (hr : s.running = true) (h : s.flow.next ≤ s.flow.latest)
    (hw : s.flow.waiting = true) : s.evaluate.1 = s ∧ s.evaluate.2.commands = [] := by
  have look := look_evaluate hr
  generalize s.evaluate.1 = t at look ⊢
  generalize s.evaluate.2.commands = commands at look ⊢
  cases look with
  | caughtUp hlt _ | finished hlt _ => exact absurd hlt (UInt32.not_lt.mpr h)
  | inFlight _ _ => exact ⟨rfl, rfl⟩
  | requested _ hidle => simp [hw] at hidle

theorem evaluate_of_requested (hr : s.running = true) (h : s.flow.next ≤ s.flow.latest)
    (hw : s.flow.waiting = false) :
    s.evaluate.1 = { s with flow := { s.flow with waiting := true }, armed := true } ∧
      s.evaluate.2.commands =
        [.schedule .debounce s.timing.debounce, .schedule .retry s.timing.retry] := by
  have look := look_evaluate hr
  generalize s.evaluate.1 = t at look ⊢
  generalize s.evaluate.2.commands = commands at look ⊢
  cases look with
  | caughtUp hlt _ | finished hlt _ => exact absurd hlt (UInt32.not_lt.mpr h)
  | inFlight _ hw' => simp [hw] at hw'
  | requested _ _ => exact ⟨rfl, rfl⟩

/-- An announcement is noted, and the download looked at. -/
theorem onText_of_announces {text : String} (hr : s.running = true) (h : Announces text a) :
    (s.onText text).1 = (s.hearing [a]).evaluate.1 ∧
      (s.onText text).2.commands = (s.hearing [a]).evaluate.2.commands ∧
      (s.onText text).2.notices = [] := by
  rw [Announces] at h
  rw [onText]
  dsimp only
  rw [h]
  dsimp only
  rw [if_pos hr]
  exact ⟨rfl, List.nil_append _, notices_evaluate (s.hearing [a])⟩

/-- Texts that arrive after the end of the job do nothing. -/
theorem run_arrivals_of_resting (hr : s.running = false) (hp : s.pending = false)
    (texts : List String) : (s.run (arrivals texts)).1 = s ∧
      (s.run (arrivals texts)).2.commands = [] ∧ (s.run (arrivals texts)).2.notices = [] := by
  induction texts with
  | nil => exact ⟨rfl, rfl, rfl⟩
  | cons text texts ih =>
    have hnoted : s.noted (.text text) = s := by rw [noted, ← hp]
    have turn := turn_handle s (.text text)
    rw [hnoted] at turn
    obtain ⟨hs, hcommands, hnotices⟩ := turn.of_resting hr
    obtain ⟨hs', hcommands', hnotices'⟩ := ih
    rw [arrivals, List.map_cons, run_cons]
    simp only [perform, hs, Effects.commands_followedBy, Effects.notices_followedBy, hcommands,
      hnotices]
    exact ⟨hs', hcommands', hnotices'⟩

/-- **Only a job without segments ends with an announcement.** -/
theorem eq_zero_of_finished (h : s.Coherent) (hwithin : s.flow.Within f) (hr : s.running = true)
    (ha : a.Within f) (hlt : (s.flow.announce a).latest < (s.flow.announce a).next)
    (hcomplete : (s.flow.announce a).complete = true) : f.toNat = 0 := by
  have hnext := h.next_le
  rw [UInt32.lt_iff_toNat_lt, Flow.toNat_latest_announce, Flow.next_announce] at hlt
  -- a job that is complete and runs has something left to fetch
  have hopen : s.flow.complete = false := by
    by_contra hnot
    have hle := UInt32.le_iff_toNat_le.mp (h.complete_le hr (by simpa using hnot))
    omega
  have hlatest : a.latest = f := by
    rcases Flow.complete_announce _ _ |>.mp hcomplete with hc | hc
    · simp [hopen] at hc
    · exact hc.trans ha.total_eq
  rw [hlatest] at hlt
  have hbelow := hwithin.latest_lt hopen
  omega

/-- Then nothing else can be announced. -/
theorem hearing_of_eq_zero (hzero : f.toNat = 0) (ha : a.Within f) (has : ∀ b ∈ as, b.Within f) :
    s.hearing (a :: as) = s.hearing [a] := by
  have heq : ∀ b : Availability, b.Within f → b = ⟨0, 0⟩ := by
    rintro ⟨latest, total⟩ ⟨htotal, hlatest⟩
    obtain rfl : f = 0 := UInt32.toNat_inj.mp hzero
    have hle := UInt32.le_iff_toNat_le.mp hlatest
    obtain rfl : latest = 0 := UInt32.toNat_inj.mp (Nat.le_zero.mp hle)
    obtain rfl : total = 0 := htotal
    rfl
  have hall : ∀ b ∈ a :: as, b.Within f := List.forall_mem_cons.mpr ⟨ha, has⟩
  have hsame : ∀ b, b ∈ a :: as ↔ b ∈ [a] := by
    intro b
    rw [List.mem_singleton]
    exact ⟨fun hb => (heq b (hall b hb)).trans (heq a ha).symm, fun hb => hb ▸ List.mem_cons_self⟩
  rw [hearing, hearing, Flow.announceAll_congr (fun b hb => (hall b hb).total_eq) hsame]

/-- **To look at the download after the first announcement is no loss**: either the job is over, and
would have been over with all of them, or what comes of it and of a look after the others is what
comes of one look after all. -/
theorem evaluate_hearing_cons (h : s.Coherent) (hwithin : s.flow.Within f) (hr : s.running = true)
    (ha : a.Within f) (has : ∀ b ∈ as, b.Within f) (ht : (s.hearing [a]).evaluate.1 = t)
    (hcommands : (s.hearing [a]).evaluate.2.commands = commands) :
    t.pending = false ∧
    (t.running = true → (t.hearing as).evaluate.1 = (s.hearing (a :: as)).evaluate.1 ∧
      commands ++ (t.hearing as).evaluate.2.commands =
        (s.hearing (a :: as)).evaluate.2.commands) ∧
    (t.running = false → t = (s.hearing (a :: as)).evaluate.1 ∧
      commands = (s.hearing (a :: as)).evaluate.2.commands) := by
  have look := look_evaluate (s := s.hearing [a]) hr
  rw [ht, hcommands] at look
  cases look with
  | caughtUp hlt hopen =>
    -- nothing was in flight, since that would have been announced
    have hidle : (s.hearing [a]).flow.waiting = false := by
      by_contra hw
      have hle := UInt32.le_iff_toNat_le.mp (h.waiting_le (Bool.of_not_eq_false hw))
      have hlatest := Flow.latest_le_announceAll s.flow [a]
      rw [UInt32.lt_iff_toNat_lt] at hlt
      exact absurd (Nat.le_trans hle hlatest) (Nat.not_le.mpr hlt)
    have hsame : { s.hearing [a] with flow := { (s.hearing [a]).flow with waiting := false } } =
        s.hearing [a] := by rw [← hidle]
    rw [hsame]
    exact ⟨rfl, fun _ => ⟨rfl, List.nil_append _⟩,
      fun hrest => Bool.noConfusion (hr.symm.trans hrest)⟩
  | finished hlt hcomplete =>
    have hzero := eq_zero_of_finished h hwithin hr ha hlt hcomplete
    rw [hearing_of_eq_zero hzero ha has, ht, hcommands]
    exact ⟨rfl, fun hrunning => Bool.noConfusion hrunning, fun _ => ⟨rfl, rfl⟩⟩
  | inFlight hfetch hw =>
    exact ⟨rfl, fun _ => ⟨rfl, List.nil_append _⟩,
      fun hrest => Bool.noConfusion (hr.symm.trans hrest)⟩
  | requested hfetch hw =>
    -- the request goes out with the first announcement, and the others find it in flight
    let u : Session σ := { s.hearing (a :: as) with
      flow := { (s.hearing (a :: as)).flow with waiting := true }, armed := true }
    have hu : Session.hearing { s.hearing [a] with
        flow := { (s.hearing [a]).flow with waiting := true }, armed := true } as = u := by
      rw [hearing]
      dsimp only
      rw [Flow.announceAll_waiting]
      rfl
    have hfetch' : (s.hearing (a :: as)).flow.next ≤ (s.hearing (a :: as)).flow.latest := by
      rw [UInt32.le_iff_toNat_le] at hfetch ⊢
      rw [hearing, Flow.next_announceAll, ← Flow.next_announceAll s.flow [a]]
      exact Nat.le_trans hfetch (Flow.latest_le_announceAll _ as)
    have hidle : (s.hearing (a :: as)).flow.waiting = false := by
      rw [hearing, Flow.waiting_announceAll, ← Flow.waiting_announceAll s.flow [a]]
      exact hw
    obtain ⟨hin, hnone⟩ := evaluate_of_inFlight (s := u) hr hfetch' rfl
    obtain ⟨hout, hpair⟩ := evaluate_of_requested (s := s.hearing (a :: as)) hr hfetch' hidle
    rw [hu, hin, hnone, hout, hpair]
    exact ⟨rfl, fun _ => ⟨rfl, rfl⟩, fun hrest => Bool.noConfusion (hr.symm.trans hrest)⟩

/-- **Announcements that arrive one after the other** do what one look does when all of them have
been noted. -/
theorem run_arrivals {text : String} {texts : List String} (h : s.Coherent)
    (hwithin : s.flow.Within f) (hr : s.running = true) (ha : a.Within f)
    (has : ∀ b ∈ as, b.Within f) (hfirst : Announces text a)
    (hrest : List.Forall₂ Announces texts as) :
    (s.run (arrivals (text :: texts))).1 = (s.hearing (a :: as)).evaluate.1 ∧
      (s.run (arrivals (text :: texts))).2.commands =
        (s.hearing (a :: as)).evaluate.2.commands ∧
      (s.run (arrivals (text :: texts))).2.notices = [] := by
  induction hrest generalizing s text a with
  | nil =>
    obtain ⟨hs, hcommands, hnotices⟩ := onText_of_announces hr hfirst
    refine ⟨hs, ?_, ?_⟩
    · exact (List.append_nil _).trans hcommands
    · exact (List.append_nil _).trans hnotices
  | @cons text' a' texts as hnext hrest ih =>
    obtain ⟨hs, hcommands, hnotices⟩ := onText_of_announces hr hfirst
    obtain ⟨ha', has'⟩ := List.forall_mem_cons.mp has
    obtain ⟨hpending, hgoing, hover⟩ :=
      evaluate_hearing_cons h hwithin hr ha has hs.symm hcommands.symm
    have hrun : s.run (arrivals (text :: text' :: texts)) =
        (((s.onText text).1.run (arrivals (text' :: texts))).1,
          (s.onText text).2.followedBy ((s.onText text).1.run (arrivals (text' :: texts))).2) := rfl
    rw [hrun]
    simp only [Effects.commands_followedBy, Effects.notices_followedBy, hnotices, List.nil_append]
    cases hstill : (s.onText text).1.running with
    | true =>
      have hwithin' : (s.onText text).1.flow.Within f := by
        rw [hs]
        exact (look_evaluate (s := s.hearing [a]) hr).within (hwithin.announce ha)
      have coherent' : (s.onText text).1.Coherent := h.handle (.text text)
      obtain ⟨hs', hcommands', hnotices'⟩ := ih coherent' hwithin' hstill ha' has' hnext
      obtain ⟨hlast, hall⟩ := hgoing hstill
      rw [hs', hcommands']
      exact ⟨hlast, hall, hnotices'⟩
    | false =>
      obtain ⟨hs', hcommands', hnotices'⟩ :=
        run_arrivals_of_resting hstill hpending (text' :: texts)
      obtain ⟨hlast, hall⟩ := hover hstill
      rw [hs', hcommands', List.append_nil]
      exact ⟨hlast, hall, hnotices'⟩

/-- What one look makes necessary: nothing, one request, or the end of the job. -/
theorem Look.commands_cases (look : s.Look s' commands) : commands = [] ∨
    commands = [.schedule .debounce s.timing.debounce, .schedule .retry s.timing.retry] ∨
    commands = cancelTimers ++ [.finished] := by
  cases look with
  | caughtUp | inFlight => exact .inl rfl
  | requested => exact .inr (.inl rfl)
  | finished => exact .inr (.inr rfl)

/-- **Announcements may arrive in any order.** Take a running job, whatever has happened in it,
whose announcements all gave the same number of segments and announced none beyond it; and more
announcements of this kind. If they arrive in any other order, and some of them several times, the
session is the same afterwards in every respect, and the same has to be done about it: nothing, or
what a single request needs, or, in a job without segments, what the end of the job needs. -/
theorem announcements_in_any_order {s₀ s₁ : Session σ} {c : Configuration}
    {effects told : Effects σ} (hsubmit : s₀.submit c = .ok (s₁, effects)) {job : List (Deed σ)}
    (hrun : s₁.run job = (s, told)) (hr : s.running = true)
    (hjob : ∀ text a, .event (.text text) ∈ job → Announces text a → a.Within f)
    {xs ys : List String} (hxs : List.Forall₂ Announces xs as)
    (hys : List.Forall₂ Announces ys bs) (hall : ∀ a ∈ as, a.Within f)
    (hsame : ∀ a, a ∈ as ↔ a ∈ bs) :
    (s.run (arrivals ys)).1 = (s.run (arrivals xs)).1 ∧
      (s.run (arrivals ys)).2.commands = (s.run (arrivals xs)).2.commands ∧
      (s.run (arrivals xs)).2.notices = [] ∧ (s.run (arrivals ys)).2.notices = [] ∧
      ((s.run (arrivals xs)).2.commands = [] ∨
        (s.run (arrivals xs)).2.commands =
          [.schedule .debounce s.timing.debounce, .schedule .retry s.timing.retry] ∨
        (s.run (arrivals xs)).2.commands = cancelTimers ++ [.finished]) := by
  have coherent : s.Coherent := by
    have hcoherent := (Coherent.of_submit hsubmit).run job
    rwa [hrun] at hcoherent
  have hwithin : s.flow.Within f := by
    have hstart : s₁.flow.Within f := by
      rw [(submit_eq_ok hsubmit).1]
      exact Flow.within_new f
    have hthen := within_run hstart hjob
    rwa [hrun] at hthen
  cases hxs with
  | nil =>
    obtain rfl : bs = [] := List.eq_nil_iff_forall_not_mem.mpr fun a ha => by
      simpa using (hsame a).mpr ha
    cases hys
    exact ⟨rfl, rfl, rfl, rfl, .inl rfl⟩
  | @cons text a texts as hfirst hrest =>
    obtain ⟨ha, has⟩ := List.forall_mem_cons.mp hall
    have hheard : s.hearing bs = s.hearing (a :: as) := by
      rw [hearing, hearing, Flow.announceAll_congr (fun a ha => (hall a ha).total_eq) hsame]
    obtain ⟨hs, hcommands, hnotices⟩ := run_arrivals coherent hwithin hr ha has hfirst hrest
    cases hys with
    | nil => exact absurd ((hsame a).mp List.mem_cons_self) List.not_mem_nil
    | @cons text' b texts' bs hfirst' hrest' =>
      obtain ⟨hb, hbs⟩ := List.forall_mem_cons.mp fun b hb => hall b ((hsame b).mpr hb)
      obtain ⟨hs', hcommands', hnotices'⟩ :=
        run_arrivals coherent hwithin hr hb hbs hfirst' hrest'
      have look := look_evaluate (s := s.hearing (a :: as)) hr
      rw [hs, hs', hcommands, hcommands', hnotices, hnotices', hheard]
      exact ⟨rfl, rfl, rfl, rfl, look.commands_cases⟩

/-- A job of three segments, the first of which was announced, asked for, and not there yet. Two
more announcements arrive, in order, or the other way round and one of them twice. Either way the
request for the first segment is made once. -/
theorem announcements_in_any_order_of_three :
    ∃ (s : Session Unit) (second third : String), s.running = true ∧
      s.flow = { next := 1, latest := 1, total := 3 } ∧
      Announces second ⟨2, 3⟩ ∧ Announces third ⟨3, 3⟩ ∧
      (s.run (arrivals [third, second, third])).1 = (s.run (arrivals [second, third])).1 ∧
      (s.run (arrivals [third, second, third])).2.commands =
        [.schedule .debounce s.timing.debounce, .schedule .retry s.timing.retry] := by
  obtain ⟨first, hfirst⟩ : ∃ text, Announces text ⟨1, 3⟩ :=
    ⟨"new_frames\x7b\"l\":1,\"f\":3\x7d", by rw [Announces]; cbv⟩
  obtain ⟨second, hsecond⟩ : ∃ text, Announces text ⟨2, 3⟩ :=
    ⟨"new_frames\x7b\"l\":2,\"f\":3\x7d", by rw [Announces]; cbv⟩
  obtain ⟨third, hthird⟩ : ∃ text, Announces text ⟨3, 3⟩ :=
    ⟨"new_frames\x7b\"l\":3,\"f\":3\x7d", by rw [Announces]; cbv⟩
  obtain ⟨missing, hmissing⟩ : ∃ text, ServerMessage.parse text = .ok (.segmentNotReady 1) :=
    ⟨"no_seg1", rfl⟩
  obtain ⟨s₁, effects, hsubmit⟩ : ∃ s₁ effects,
      submit ({ connected := true } : Session Unit) ⟨[⟨"ETH", 1⟩], []⟩ = .ok (s₁, effects) :=
    ⟨_, _, rfl⟩
  let job : List (Deed Unit) :=
    [.event (.text first), .event (.timer .debounce), .event (.text missing)]
  obtain ⟨s, told, hrun, hr, hflow⟩ : ∃ s told, s₁.run job = (s, told) ∧ s.running = true ∧
      s.flow = { next := 1, latest := 1, total := 3 } := by
    obtain ⟨rfl, -⟩ := submit_eq_ok hsubmit
    rw [Announces] at hfirst
    refine ⟨(run (started _) job).1, (run (started _) job).2, rfl, ?_⟩
    simp only [job, run_cons, perform, handle, onText, hfirst, hmissing]
    exact ⟨rfl, rfl⟩
  have hcommands : (s.run (arrivals [second, third])).2.commands =
      [.schedule .debounce s.timing.debounce, .schedule .retry s.timing.retry] := by
    rw [Announces] at hsecond hthird
    simp [arrivals, run_cons, perform, handle, onText, hsecond, hthird, hr, onMessage, noting,
      Effects.note, evaluate, hflow, Flow.announce, Flow.evaluate]
  have hjob (text : String) (a : Availability) (hmem : .event (.text text) ∈ job)
      (ha : Announces text a) : a.Within 3 := by
    have hcases : text = first ∨ text = missing := by simpa [job] using hmem
    rw [Announces] at ha hfirst
    obtain rfl | rfl := hcases
    · obtain rfl : a = ⟨1, 3⟩ := by simpa [hfirst] using ha.symm
      exact ⟨rfl, by decide⟩
    · simp [hmissing] at ha
  obtain ⟨hsame, hsame', -⟩ := announcements_in_any_order hsubmit hrun hr hjob
    (.cons hsecond (.cons hthird .nil)) (.cons hthird (.cons hsecond (.cons hthird .nil)))
    (fun a ha => by
      simp only [List.mem_cons, List.not_mem_nil, or_false] at ha
      obtain rfl | rfl := ha <;> exact ⟨rfl, by decide⟩)
    (fun a => by
      simp only [List.mem_cons, List.not_mem_nil, or_false]
      tauto)
  exact ⟨s, second, third, hr, hflow, hsecond, hthird, hsame, hsame'.trans hcommands⟩

end Session

end Deposition
