import Deposition.Proofs.Trajectory.Run

/-!
# Following a trajectory

A sink follows a trajectory from when it is registered until it is released. What it is told in
between is decided by the operations alone, and by no other sink
(`Deposition.Trajectory.callsTo_run_of_count_one`): each segment that is taken, once, with the
frames that it has added; then, if there is an end, that there is one; and nothing from then on.

A trajectory knows its sinks by their names, and nothing keeps two sinks from having the same one.
To tell them apart, the sinks of a run are given the places at which they are registered, in front
of their names (`Deposition.Trajectory.numbered`). A trajectory does not look at names, so that this
changes nothing else (`Deposition.Trajectory.run_map`), and places are given out in ascending order.
`Deposition.Trajectory.Followed` says of a run what each of its sinks is told.
-/

namespace Deposition

section Calls

variable {σ : Type} [DecidableEq σ]

/-- What one sink is told. -/
def callsTo (x : σ) (notices : List (Notice σ)) : List SinkCall :=
  (notices.filter fun notice => notice.sink = x).map Notice.call

@[simp] theorem callsTo_append (x : σ) (ns ms : List (Notice σ)) :
    callsTo x (ns ++ ms) = callsTo x ns ++ callsTo x ms := by
  simp [callsTo]

/-- What every sink is told, each is told as often as it is registered. -/
theorem callsTo_map (x : σ) (sinks : List σ) (call : SinkCall) :
    callsTo x (sinks.map fun sink => ⟨sink, call⟩) = List.replicate (sinks.count x) call := by
  induction sinks with
  | nil => rfl
  | cons y sinks ih =>
    by_cases h : y = x
    · subst h
      simp_all [callsTo, List.replicate_succ]
    · simp_all [callsTo]

theorem mem_callsTo {x : σ} {notices : List (Notice σ)} {call : SinkCall} :
    call ∈ callsTo x notices ↔ ⟨x, call⟩ ∈ notices := by
  simp only [callsTo, List.mem_map, List.mem_filter, decide_eq_true_eq]
  constructor
  · rintro ⟨⟨y, call'⟩, ⟨hmem, rfl⟩, rfl⟩
    exact hmem
  · intro hmem
    exact ⟨⟨x, call⟩, ⟨hmem, rfl⟩, rfl⟩

end Calls

/-- The same call to a sink of another name. -/
def Notice.map {σ τ : Type} (f : σ → τ) (notice : Notice σ) : Notice τ :=
  ⟨f notice.sink, notice.call⟩

namespace Trajectory

variable {σ τ : Type}

/-! ### Names -/

/-- The same trajectory, whose sinks have other names. -/
def map (f : σ → τ) (t : Trajectory σ) : Trajectory τ := ⟨t.species, t.frames, t.sinks.map f⟩

/-- The same operation for a sink of another name. -/
def Operation.map (f : σ → τ) : Operation σ → Operation τ
  | .append s => .append s
  | .register sink => .register (f sink)
  | .release => .release
  | .clear => .clear

/-- Whether the sinks are released. -/
def Operation.ends : Operation σ → Bool
  | .append _ | .register _ => false
  | .release | .clear => true

@[simp] theorem Operation.ends_map (f : σ → τ) (op : Operation σ) : (op.map f).ends = op.ends := by
  cases op <;> rfl

theorem map_register (f : σ → τ) (t : Trajectory σ) (x : σ) :
    (t.register x).map f = (t.map f).register (f x) := by
  simp [register, map]

theorem mismatch?_map (f : σ → τ) (t : Trajectory σ) (s : Segment) :
    (t.map f).mismatch? s = t.mismatch? s := rfl

/-- **Names do not matter** to what is done. -/
theorem perform_map (f : σ → τ) (t : Trajectory σ) (op : Operation σ) :
    (t.map f).perform (op.map f) =
      ((t.perform op).1.map f, (t.perform op).2.map (Notice.map f)) := by
  cases op with
  | append s =>
    rw [Operation.map]
    cases hm : t.mismatch? s with
    | some error => rw [perform_append_error hm, perform_append_error (t := t.map f) hm]; rfl
    | none =>
      rw [perform_append_ok hm, perform_append_ok (t := t.map f) hm]
      simp [extend, map, Notice.map]
  | register sink => exact congrArg (·, []) (map_register f t sink).symm
  | release => simp [Operation.map, perform, releaseSinks, map, Notice.map]
  | clear => simp [Operation.map, perform, clear, releaseSinks, map, Notice.map]

theorem run_map (f : σ → τ) (t : Trajectory σ) (ops : List (Operation σ)) :
    (t.map f).run (ops.map (Operation.map f)) =
      ((t.run ops).1.map f, (t.run ops).2.map (Notice.map f)) := by
  induction ops generalizing t with
  | nil => rfl
  | cons op ops ih => simp [run_cons, perform_map, ih]

/-! ### What there is to tell -/

/-- What an operation gives a sink to be told that goes on following: the frames that are new, if a
segment is taken, with the species of the job. -/
def news (t : Trajectory σ) : Operation σ → List SinkCall
  | .append s =>
    match t.append s with
    | .ok (u, _) => [.segment s.id (u.species.getD []) (u.frames.drop t.frames.length)]
    | .error _ => []
  | _ => []

/-- What several operations give it to be told. -/
def allNews (t : Trajectory σ) : List (Operation σ) → List SinkCall
  | [] => []
  | op :: ops => t.news op ++ (t.perform op).1.allNews ops

theorem news_append_ok {t : Trajectory σ} {s : Segment} (h : t.mismatch? s = none) :
    t.news (.append s) = [.segment s.id s.species s.frames] := by
  rw [news, append_eq h]
  simp [extend]

theorem news_append_error {t : Trajectory σ} {s : Segment} {error : TrajectoryError}
    (h : t.mismatch? s = some error) : t.news (.append s) = [] := by
  rw [news, append_eq_error h]

theorem allNews_map (f : σ → τ) (t : Trajectory σ) (ops : List (Operation σ)) :
    (t.map f).allNews (ops.map (Operation.map f)) = t.allNews ops := by
  induction ops generalizing t with
  | nil => rfl
  | cons op ops ih =>
    have hnews : (t.map f).news (op.map f) = t.news op := by
      cases op with
      | append s =>
        rw [Operation.map]
        cases hm : t.mismatch? s with
        | some error => rw [news_append_error hm, news_append_error (t := t.map f) hm]
        | none => rw [news_append_ok hm, news_append_ok (t := t.map f) hm]
      | register sink | release | clear => rfl
    rw [List.map_cons, allNews, allNews, hnews, perform_map, ih]

/-! ### What one sink is told -/

section Told

variable [DecidableEq σ] {t : Trajectory σ} {x : σ} {op : Operation σ} {ops : List (Operation σ)}

/-- **Who is not registered** is told nothing, and is not registered by others. -/
theorem callsTo_perform_of_count_zero (h : t.sinks.count x = 0) (hop : op ≠ .register x) :
    callsTo x (t.perform op).2 = [] ∧ (t.perform op).1.sinks.count x = 0 := by
  cases op with
  | append s =>
    cases hm : t.mismatch? s with
    | some error => rw [perform_append_error hm]; exact ⟨rfl, h⟩
    | none => rw [perform_append_ok hm, callsTo_map, h]; exact ⟨rfl, h⟩
  | register y =>
    have hy : y ≠ x := fun hy => hop (by rw [hy])
    exact ⟨rfl, by simp [perform, register, h, hy]⟩
  | release => simp [perform, releaseSinks, callsTo_map, h]
  | clear => simp [perform, clear, releaseSinks, callsTo_map, h]

theorem callsTo_run_of_count_zero (h : t.sinks.count x = 0) (hops : .register x ∉ ops) :
    callsTo x (t.run ops).2 = [] ∧ (t.run ops).1.sinks.count x = 0 := by
  induction ops generalizing t with
  | nil => exact ⟨rfl, h⟩
  | cons op ops ih =>
    rw [List.mem_cons, not_or] at hops
    obtain ⟨hcalls, hcount⟩ := callsTo_perform_of_count_zero h (Ne.symm hops.1)
    obtain ⟨hcalls', hcount'⟩ := ih hcount hops.2
    rw [run_cons, callsTo_append, hcalls, hcalls']
    exact ⟨rfl, hcount'⟩

theorem count_register (h : t.sinks.count x = 0) : (t.register x).sinks.count x = 1 := by
  rw [register, List.count_append, h, List.count_singleton_self]

/-- **Who is registered once** is told what is new, or that it is released. -/
theorem callsTo_perform_of_count_one (h : t.sinks.count x = 1) (hop : op ≠ .register x) :
    if op.ends then
      callsTo x (t.perform op).2 = [.released] ∧ (t.perform op).1.sinks.count x = 0
    else callsTo x (t.perform op).2 = t.news op ∧ (t.perform op).1.sinks.count x = 1 := by
  cases op with
  | append s =>
    cases hm : t.mismatch? s with
    | some error =>
      rw [perform_append_error hm, news_append_error hm]
      exact ⟨rfl, h⟩
    | none =>
      rw [perform_append_ok hm, news_append_ok hm, callsTo_map, h]
      exact ⟨rfl, h⟩
  | register y =>
    have hy : y ≠ x := fun hy => hop (by rw [hy])
    exact ⟨rfl, by simp [perform, register, h, hy]⟩
  | release => simp [Operation.ends, perform, releaseSinks, callsTo_map, h]
  | clear => simp [Operation.ends, perform, clear, releaseSinks, callsTo_map, h]

/-- **What a sink is told** from then on: all news before the sinks are released, and then that it
is released. -/
theorem callsTo_run_of_count_one (h : t.sinks.count x = 1) (hops : .register x ∉ ops) :
    callsTo x (t.run ops).2 = t.allNews (ops.takeWhile fun op => !op.ends) ++
      if ops.any Operation.ends then [.released] else [] := by
  induction ops generalizing t with
  | nil => rfl
  | cons op ops ih =>
    rw [List.mem_cons, not_or] at hops
    have hop := callsTo_perform_of_count_one h (Ne.symm hops.1)
    rw [run_cons, callsTo_append]
    cases hends : op.ends with
    | true =>
      rw [hends, if_pos rfl] at hop
      rw [hop.1, (callsTo_run_of_count_zero hop.2 hops.2).1]
      simp [hends, allNews]
    | false =>
      rw [hends, if_neg Bool.false_ne_true] at hop
      rw [hop.1, ih hop.2 hops.2]
      simp [hends, allNews]

end Told

/-! ### Places -/

/-- The same operations, with their places in front of the names of the sinks that they register. -/
def numberedFrom (place : Nat) : List (Operation σ) → List (Operation (Nat × σ))
  | [] => []
  | op :: ops => op.map (Prod.mk place) :: numberedFrom (place + 1) ops

/-- The operations of a run, with their places. -/
def numbered (ops : List (Operation σ)) : List (Operation (Nat × σ)) := numberedFrom 0 ops

section Places

variable {t : Trajectory (Nat × σ)} {place : Nat} {ops : List (Operation σ)} {x : Nat × σ}

theorem numberedFrom_append (place : Nat) (ops more : List (Operation σ)) :
    numberedFrom place (ops ++ more) =
      numberedFrom place ops ++ numberedFrom (place + ops.length) more := by
  induction ops generalizing place with
  | nil => rfl
  | cons op ops ih =>
    simp only [List.cons_append, numberedFrom, ih, List.length_cons]
    rw [Nat.add_assoc, Nat.add_comm 1]

theorem map_snd_numberedFrom (place : Nat) (ops : List (Operation σ)) :
    (numberedFrom place ops).map (Operation.map Prod.snd) = ops := by
  induction ops generalizing place with
  | nil => rfl
  | cons op ops ih =>
    rw [numberedFrom, List.map_cons, ih]
    cases op <;> rfl

/-- A sink is registered at its place. -/
theorem le_and_lt_of_register_mem (h : .register x ∈ numberedFrom place ops) :
    place ≤ x.1 ∧ x.1 < place + ops.length := by
  induction ops generalizing place with
  | nil => cases h
  | cons op ops ih =>
    rw [List.length_cons]
    rcases List.mem_cons.mp h with h | h
    · cases op with
      | register y =>
        obtain rfl : x = (place, y) := by simpa [Operation.map] using h
        dsimp only
        omega
      | append _ | release | clear => cases h
    · have := ih h
      omega

/-- **Sinks stand in the order of their places**, none of which is given out yet. -/
structure InOrder (t : Trajectory (Nat × σ)) (place : Nat) : Prop where
  /-- The places ascend. -/
  pairwise : t.sinks.Pairwise fun x y => x.1 < y.1
  /-- They have been given out. -/
  lt : ∀ x ∈ t.sinks, x.1 < place

theorem inOrder_nil (place : Nat) : InOrder ({} : Trajectory (Nat × σ)) place :=
  ⟨.nil, by simp⟩

theorem InOrder.perform (h : t.InOrder place) (op : Operation σ) :
    (t.perform (op.map (Prod.mk place))).1.InOrder (place + 1) := by
  have hlt : ∀ x ∈ t.sinks, x.1 < place + 1 := fun x hx => Nat.lt_succ_of_lt (h.lt x hx)
  cases op with
  | append s =>
    rw [Operation.map]
    cases hm : t.mismatch? s with
    | some error => rw [perform_append_error hm]; exact ⟨h.pairwise, hlt⟩
    | none => rw [perform_append_ok hm]; exact ⟨h.pairwise, hlt⟩
  | register y =>
    refine ⟨List.pairwise_append.mpr ⟨h.pairwise, List.pairwise_singleton _ _, ?_⟩, ?_⟩
    · intro x hx z hz
      obtain rfl := List.mem_singleton.mp hz
      exact h.lt x hx
    · intro x hx
      rcases List.mem_append.mp hx with hx | hx
      · exact hlt x hx
      · obtain rfl := List.mem_singleton.mp hx
        exact Nat.lt_succ_self place
  | release | clear =>
    exact ⟨.nil, by simp [Trajectory.perform, releaseSinks, clear, Operation.map]⟩

theorem InOrder.run (h : t.InOrder place) (ops : List (Operation σ)) :
    (t.run (numberedFrom place ops)).1.InOrder (place + ops.length) := by
  induction ops generalizing t place with
  | nil => exact h
  | cons op ops ih =>
    have hrest := ih (h.perform op)
    rw [numberedFrom, run_cons, List.length_cons, Nat.add_comm ops.length, ← Nat.add_assoc]
    exact hrest

/-- Of a segment they are told in this order. -/
theorem InOrder.pairwise_append (h : t.InOrder place) (s : Segment) :
    (t.perform (.append s)).2.Pairwise fun n m => n.sink.1 < m.sink.1 := by
  cases hm : t.mismatch? s with
  | some error => rw [perform_append_error hm]; exact .nil
  | none => rw [perform_append_ok hm]; exact List.pairwise_map.mpr h.pairwise

/-- **Without the places** a run is what it was. -/
theorem run_numberedFrom (place : Nat) (ops : List (Operation σ)) :
    run {} ops = (((run {} (numberedFrom place ops)).1).map Prod.snd,
      (run {} (numberedFrom place ops)).2.map (Notice.map Prod.snd)) := by
  have hmap := run_map Prod.snd ({} : Trajectory (Nat × σ)) (numberedFrom place ops)
  rw [map_snd_numberedFrom] at hmap
  exact hmap

/-- The news do not depend on the places. -/
theorem allNews_numberedFrom (t : Trajectory (Nat × σ)) (place : Nat) (ops : List (Operation σ)) :
    t.allNews ((numberedFrom place ops).takeWhile fun op => !op.ends) =
      (t.map Prod.snd).allNews (ops.takeWhile fun op => !op.ends) := by
  have htake : ((numberedFrom place ops).takeWhile fun op => !op.ends).map
      (Operation.map Prod.snd) = ops.takeWhile fun op => !op.ends := by
    have hmap := List.takeWhile_map (f := Operation.map Prod.snd) (l := numberedFrom place ops)
      (p := fun op : Operation σ => !op.ends)
    rw [map_snd_numberedFrom] at hmap
    simpa [Function.comp_def] using hmap.symm
  rw [← htake, allNews_map]

/-- Nor does it whether the sinks are released. -/
theorem any_ends_numberedFrom (place : Nat) (ops : List (Operation σ)) :
    (numberedFrom place ops).any Operation.ends = ops.any Operation.ends := by
  have hmap := List.any_map (f := Operation.map Prod.snd) (l := numberedFrom place ops)
    (p := Operation.ends (σ := σ))
  rw [map_snd_numberedFrom] at hmap
  simpa [Function.comp_def] using hmap.symm

/-- **What the sink of a place is told** in a run. It is registered nowhere else, so it is not
registered before, and once from then on. -/
theorem callsTo_numbered [DecidableEq σ] (before : List (Operation σ)) (x : σ)
    (after : List (Operation σ)) :
    callsTo (before.length, x) (run {} (numbered (before ++ .register x :: after))).2 =
      ((run {} before).1.register x).allNews (after.takeWhile fun op => !op.ends) ++
        if after.any Operation.ends then [.released] else [] := by
  have hbefore : .register (before.length, x) ∉ numberedFrom 0 before := fun h => by
    have := le_and_lt_of_register_mem h
    omega
  have hafter : .register (before.length, x) ∉ numberedFrom (before.length + 1) after := fun h => by
    have := le_and_lt_of_register_mem h
    omega
  obtain ⟨hnone, hcount⟩ := callsTo_run_of_count_zero (t := {}) rfl hbefore
  have hthen := callsTo_run_of_count_one (count_register hcount) hafter
  rw [allNews_numberedFrom, any_ends_numberedFrom, map_register] at hthen
  rw [numbered, numberedFrom_append, Nat.zero_add, numberedFrom, run_append, run_cons,
    callsTo_append, hnone, run_numberedFrom 0 before]
  exact hthen

end Places

/-! ### Every sink of a run -/

/-- **Every sink of a run is told what it should be.** -/
structure Followed [DecidableEq σ] (ops : List (Operation σ)) (notices : List (Notice σ)) :
    Prop where
  /-- The notices are those to sinks that are told apart by their places. -/
  notices_eq : notices = (run {} (numbered ops)).2.map (Notice.map Prod.snd)
  /-- From when it is registered, each is told all that is new until the sinks are released, and
  then that they are. -/
  calls_eq : ∀ before x after, ops = before ++ .register x :: after →
    callsTo (before.length, x) (run {} (numbered ops)).2 =
      ((run {} before).1.register x).allNews (after.takeWhile fun op => !op.ends) ++
        if after.any Operation.ends then [.released] else []
  /-- Of a segment they are told in the order in which they were registered. -/
  pairwise : ∀ before s after, ops = before ++ .append s :: after →
    ((run {} (numbered before)).1.perform (.append s)).2.Pairwise fun n m => n.sink.1 < m.sink.1
  /-- Of a segment that is refused nobody is told. -/
  notices_eq_nil : ∀ before s after error, ops = before ++ .append s :: after →
    (run {} before).1.append s = .error error →
    ((run {} (numbered before)).1.perform (.append s)).2 = []

/-- **Any operations on a new trajectory** are followed by its sinks. -/
theorem followed_run [DecidableEq σ] (ops : List (Operation σ)) : Followed ops (run {} ops).2 := by
  refine ⟨congrArg Prod.snd (run_numberedFrom 0 ops), ?_, ?_, ?_⟩
  · rintro before x after rfl
    exact callsTo_numbered before x after
  · rintro before s after rfl
    exact ((inOrder_nil 0).run before).pairwise_append s
  · rintro before s after error rfl herror
    rw [run_numberedFrom 0 before] at herror
    cases hm : (run {} (numbered before)).1.mismatch? s with
    | some error' => rw [perform_append_error hm]
    | none =>
      have hok := append_eq ((mismatch?_map Prod.snd _ s).trans hm)
      cases hok.symm.trans herror

end Trajectory

end Deposition
