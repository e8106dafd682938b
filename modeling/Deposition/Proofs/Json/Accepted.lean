import Deposition.Proofs.Json.Grammar

/-!
# Nothing else is read

Whatever the reader of JSON accepts is a text of the value that it finds
(`Deposition.Json.isTextOf_of_read?`). Together with the converse this makes the grammar an exact
account of the reader (`Deposition.Json.read?_eq_some_iff`): a text that is no text of any value is
refused, and no text has two values.

The lemmas follow the reader from its smallest parts up. Each says that what was taken is a part of
the grammar, and that nothing was lost between what was taken and what is left.
-/

namespace Deposition

namespace Json

theorem exists_spaces (cs : List Char) : ∃ ws, Spaces ws ∧ cs = ws ++ skipSpace cs :=
  ⟨cs.takeWhile isSpace, fun _ hc => List.mem_takeWhile_imp hc,
    List.takeWhile_append_dropWhile.symm⟩

theorem Spaces.append {ws ws' : List Char} (h : Spaces ws) (h' : Spaces ws') :
    Spaces (ws ++ ws') := fun c hc => (List.mem_append.mp hc).elim (h c) (h' c)

theorem of_digits?_eq_some {cs ds rest : List Char} (h : digits? cs = some (ds, rest)) :
    Text.DigitRun ds ∧ cs = ds ++ rest := by
  simp only [digits?, Option.ite_none_left_eq_some, Option.some.injEq, Prod.mk.injEq] at h
  obtain ⟨hne, rfl, rfl⟩ := h
  exact ⟨⟨by simpa using hne, fun _ hc => List.mem_takeWhile_imp hc⟩,
    List.takeWhile_append_dropWhile.symm⟩

theorem of_whole?_eq_some {cs ds rest : List Char} (h : whole? cs = some (ds, rest)) :
    WholeText ds ∧ cs = ds ++ rest := by
  unfold whole? at h
  split at h
  · cases h
    exact ⟨.inl rfl, rfl⟩
  · next hzero =>
    obtain ⟨hrun, rfl⟩ := of_digits?_eq_some h
    refine ⟨.inr ⟨hrun, fun hhead => ?_⟩, rfl⟩
    obtain ⟨es, rfl⟩ := List.head?_eq_some_iff.mp hhead
    exact hzero _ rfl

theorem of_fraction?_eq_some {cs fs rest : List Char} (h : fraction? cs = some (fs, rest)) :
    FractionText fs ∧ cs = fs ++ rest := by
  unfold fraction? at h
  split at h
  · obtain ⟨⟨ds, rest'⟩, hds, heq⟩ := Option.map_eq_some_iff.mp h
    cases heq
    obtain ⟨hrun, rfl⟩ := of_digits?_eq_some hds
    exact ⟨.inr ⟨ds, hrun, rfl⟩, rfl⟩
  · cases h
    exact ⟨.inl rfl, rfl⟩

theorem of_exponent?_eq_some {cs es rest : List Char} (h : exponent? cs = some (es, rest)) :
    ExponentText es ∧ cs = es ++ rest := by
  have key (sign : List Char) {mark : Char} {cs ds rest : List Char}
      (hmark : (mark == 'e' || mark == 'E') = true)
      (hsign : sign = [] ∨ sign = ['+'] ∨ sign = ['-']) (h : digits? cs = some (ds, rest)) :
      ExponentText (mark :: (sign ++ ds)) ∧
        mark :: (sign ++ cs) = mark :: (sign ++ ds) ++ rest := by
    obtain ⟨hrun, rfl⟩ := of_digits?_eq_some h
    exact ⟨.inr ⟨mark, sign, ds, by simpa using hmark, hsign, hrun, rfl⟩, by simp⟩
  unfold exponent? at h
  split at h
  · split at h
    · next hmark =>
      split at h <;> obtain ⟨⟨ds, rest'⟩, hds, heq⟩ := Option.map_eq_some_iff.mp h <;> cases heq
      · exact key ['+'] hmark (.inr (.inl rfl)) hds
      · exact key ['-'] hmark (.inr (.inr rfl)) hds
      · exact key [] hmark (.inl rfl) hds
    · cases h
      exact ⟨.inl rfl, rfl⟩
  · cases h
    exact ⟨.inl rfl, rfl⟩

theorem of_number?_eq_some {cs rest : List Char} {literal : String}
    (h : number? cs = some (literal, rest)) :
    ∃ ds, NumberText ds ∧ literal = String.ofList ds ∧ cs = ds ++ rest := by
  unfold number? at h
  split at h
  next sign unsigned hsplit =>
  obtain ⟨hsign, rfl⟩ : (sign = [] ∨ sign = ['-']) ∧ cs = sign ++ unsigned := by
    split at hsplit <;> cases hsplit
    · exact ⟨.inr rfl, rfl⟩
    · exact ⟨.inl rfl, rfl⟩
  simp only [Option.bind_eq_bind, Option.bind_eq_some_iff, Option.pure_def, Option.some.injEq,
    Prod.mk.injEq, Prod.exists] at h
  obtain ⟨whole, cs, hwhole, fraction, cs', hfraction, exponent, cs'', hexponent, rfl, rfl⟩ := h
  obtain ⟨hwhole', rfl⟩ := of_whole?_eq_some hwhole
  obtain ⟨hfraction', rfl⟩ := of_fraction?_eq_some hfraction
  obtain ⟨hexponent', rfl⟩ := of_exponent?_eq_some hexponent
  exact ⟨_, ⟨sign, whole, fraction, exponent, hsign, hwhole', hfraction', hexponent', rfl⟩, rfl,
    by simp⟩

theorem of_pieces?_eq_some {cs rest : List Char} {ps : List Piece}
    (h : pieces? cs = some (ps, rest)) : ∃ ns, StringText ps ns ∧ cs = ns ++ '"' :: rest := by
  fun_induction pieces? cs generalizing ps rest with
  | case1 => cases h
  | case2 =>
    cases h
    exact ⟨[], .nil, rfl⟩
  | case3 a b c d cs ih =>
    simp only [Option.bind_eq_bind, Option.bind_eq_some_iff, Option.pure_def, Option.some.injEq,
      Prod.mk.injEq, Prod.exists] at h
    obtain ⟨n, hn, ps', rest', hps, rfl, rfl⟩ := h
    obtain ⟨ns, hns, rfl⟩ := ih hps
    exact ⟨_, .unit hn hns, rfl⟩
  | case4 c cs _ ih =>
    simp only [Option.bind_eq_bind, Option.bind_eq_some_iff, Option.pure_def, Option.some.injEq,
      Prod.mk.injEq, Prod.exists] at h
    obtain ⟨d, hd, ps', rest', hps, rfl, rfl⟩ := h
    obtain ⟨ns, hns, rfl⟩ := ih hps
    exact ⟨_, .escape hd hns, rfl⟩
  | case5 => cases h
  | case6 c cs hquote _ _ hplain ih =>
    simp only [Option.bind_eq_bind, Option.bind_eq_some_iff, Option.pure_def, Option.some.injEq,
      Prod.mk.injEq, Prod.exists] at h
    obtain ⟨ps', rest', hps, rfl, rfl⟩ := h
    obtain ⟨ns, hns, rfl⟩ := ih hps
    rw [Bool.or_eq_true, not_or, beq_iff_eq, decide_eq_true_eq, not_lt] at hplain
    exact ⟨_, .char c hplain.1 hquote hplain.2 hns, rfl⟩

theorem of_string?_eq_some {cs rest : List Char} {name : Option String}
    (h : string? cs = some (name, rest)) :
    ∃ ps ns, StringText ps ns ∧ name = spelled ps ∧ cs = ns ++ '"' :: rest := by
  obtain ⟨⟨ps, rest'⟩, hps, heq⟩ := Option.map_eq_some_iff.mp h
  cases heq
  obtain ⟨ns, hns, rfl⟩ := of_pieces?_eq_some hps
  exact ⟨ps, ns, hns, rfl, rfl⟩

/-- White space in front of elements is part of their text. -/
theorem WrittenItems.spaced {js : List Json} {vs cs : List Char} (h : WrittenItems js cs)
    (hvs : Spaces vs) : WrittenItems js (vs ++ cs) := by
  cases h with
  | one hws h hws' => simpa using WrittenItems.one (hvs.append hws) h hws'
  | cons hws h hws' hrest => simpa using WrittenItems.cons (hvs.append hws) h hws' hrest

/-- White space in front of members is part of their text. -/
theorem WrittenMembers.spaced {members : List (Option String × Json)} {vs cs : List Char}
    (h : WrittenMembers members cs) (hvs : Spaces vs) : WrittenMembers members (vs ++ cs) := by
  cases h with
  | one hv hname hw hx h hy => simpa using WrittenMembers.one (hvs.append hv) hname hw hx h hy
  | cons hv hname hw hx h hy hrest =>
    simpa using WrittenMembers.cons (hvs.append hv) hname hw hx h hy hrest

/-! ### One level down

A value is read with the readers of what is in it, which have one unit of fuel less. -/

/-- With so much fuel, what is accepted as a value is a text of it. -/
def ReadsValues (fuel : Nat) : Prop :=
  ∀ {cs rest : List Char} {j : Json}, value? fuel cs = some (j, rest) →
    ∃ ws ds, Spaces ws ∧ Written j ds ∧ cs = ws ++ (ds ++ rest)

/-- With so much fuel, what is accepted as the elements of an array is a text of them. -/
def ReadsItems (fuel : Nat) : Prop :=
  ∀ {cs rest : List Char} {js : List Json}, items? fuel cs = some (js, rest) →
    ∃ ds, WrittenItems js ds ∧ cs = ds ++ ']' :: rest

/-- With so much fuel, what is accepted as the members of an object is a text of them. -/
def ReadsMembers (fuel : Nat) : Prop :=
  ∀ {cs rest : List Char} {members : List (Option String × Json)},
    members? fuel cs = some (members, rest) →
      ∃ ds, WrittenMembers members ds ∧ cs = ds ++ '}' :: rest

variable {fuel : Nat}

theorem readsValues_succ (hitems : ReadsItems fuel) (hmembers : ReadsMembers fuel) :
    ReadsValues (fuel + 1) := by
  intro cs rest j h
  obtain ⟨ws, hws, hcs⟩ := exists_spaces cs
  rw [value?] at h
  split at h
  · next heq =>
    cases h
    exact ⟨ws, _, hws, .null, by rw [hcs, heq]; rfl⟩
  · next heq =>
    cases h
    exact ⟨ws, _, hws, .yes, by rw [hcs, heq]; rfl⟩
  · next heq =>
    cases h
    exact ⟨ws, _, hws, .no, by rw [hcs, heq]; rfl⟩
  · next heq =>
    obtain ⟨⟨name, rest'⟩, hname, heq'⟩ := Option.map_eq_some_iff.mp h
    cases heq'
    obtain ⟨ps, ns, hns, rfl, rfl⟩ := of_string?_eq_some hname
    exact ⟨ws, _, hws, .string hns, by rw [hcs, heq]; simp⟩
  · next after heq =>
    obtain ⟨vs, hvs, hafter⟩ := exists_spaces after
    split at h
    · next heq' =>
      cases h
      exact ⟨ws, _, hws, .nil hvs, by rw [hcs, heq, hafter, heq']; simp⟩
    · obtain ⟨⟨items, rest'⟩, hread, hpair⟩ := Option.map_eq_some_iff.mp h
      cases hpair
      obtain ⟨ds, hds, hskip⟩ := hitems hread
      exact ⟨ws, _, hws, .array (hds.spaced hvs), by rw [hcs, heq, hafter, hskip]; simp⟩
  · next after heq =>
    obtain ⟨vs, hvs, hafter⟩ := exists_spaces after
    split at h
    · next heq' =>
      cases h
      exact ⟨ws, _, hws, .empty hvs, by rw [hcs, heq, hafter, heq']; simp⟩
    · obtain ⟨⟨members, rest'⟩, hread, hpair⟩ := Option.map_eq_some_iff.mp h
      cases hpair
      obtain ⟨ds, hds, hskip⟩ := hmembers hread
      exact ⟨ws, _, hws, .object (hds.spaced hvs), by rw [hcs, heq, hafter, hskip]; simp⟩
  · obtain ⟨⟨literal, rest'⟩, hliteral, hpair⟩ := Option.map_eq_some_iff.mp h
    cases hpair
    obtain ⟨ds, hds, rfl, hskip⟩ := of_number?_eq_some hliteral
    exact ⟨ws, _, hws, .number hds, by rw [hcs, hskip]⟩

theorem readsItems_succ (hvalue : ReadsValues fuel) (hitems : ReadsItems fuel) :
    ReadsItems (fuel + 1) := by
  intro cs rest js h
  simp only [items?, Option.bind_eq_bind, Option.bind_eq_some_iff, Prod.exists] at h
  obtain ⟨j, after, hj, h⟩ := h
  obtain ⟨ws, ds, hws, hds, rfl⟩ := hvalue hj
  obtain ⟨ws', hws', hafter⟩ := exists_spaces after
  split at h
  · next hcomma =>
    obtain ⟨⟨items, rest'⟩, hread, hpair⟩ := Option.map_eq_some_iff.mp h
    cases hpair
    obtain ⟨es, hes, rfl⟩ := hitems hread
    exact ⟨_, .cons hws hds hws' hes, by rw [hafter, hcomma]; simp⟩
  · next hbracket =>
    cases h
    exact ⟨_, .one hws hds hws', by rw [hafter, hbracket]; simp⟩
  · cases h

theorem readsMembers_succ (hvalue : ReadsValues fuel) (hmembers : ReadsMembers fuel) :
    ReadsMembers (fuel + 1) := by
  intro cs rest members h
  obtain ⟨v, hv, hcs⟩ := exists_spaces cs
  rw [members?] at h
  split at h
  · next hquote =>
    simp only [Option.bind_eq_bind, Option.bind_eq_some_iff, Prod.exists] at h
    obtain ⟨name, after, hname, h⟩ := h
    obtain ⟨ps, ns, hns, rfl, rfl⟩ := of_string?_eq_some hname
    obtain ⟨w, hw, hafter⟩ := exists_spaces after
    split at h
    · next hcolon =>
      simp only [Option.bind_eq_some_iff, Prod.exists] at h
      obtain ⟨j, after', hj, h⟩ := h
      obtain ⟨x, ds, hx, hds, rfl⟩ := hvalue hj
      obtain ⟨y, hy, hafter'⟩ := exists_spaces after'
      split at h
      · next hcomma =>
        obtain ⟨⟨members, rest'⟩, hread, hpair⟩ := Option.map_eq_some_iff.mp h
        cases hpair
        obtain ⟨es, hes, rfl⟩ := hmembers hread
        exact ⟨_, .cons hv hns hw hx hds hy hes,
          by rw [hcs, hquote, hafter, hcolon, hafter', hcomma]; simp⟩
      · next hbrace =>
        cases h
        exact ⟨_, .one hv hns hw hx hds hy,
          by rw [hcs, hquote, hafter, hcolon, hafter', hbrace]; simp⟩
      · cases h
    · cases h
  · cases h

/-- **What is accepted is a text**, for values and for what lists and objects consist of. -/
theorem of_reads (fuel : Nat) : ReadsValues fuel ∧ ReadsItems fuel ∧ ReadsMembers fuel := by
  induction fuel with
  | zero => exact ⟨fun h => by simp [value?] at h, fun h => by simp [items?] at h,
      fun h => by simp [members?] at h⟩
  | succ fuel ih =>
    obtain ⟨hvalue, hitems, hmembers⟩ := ih
    exact ⟨readsValues_succ hitems hmembers, readsItems_succ hvalue hitems,
      readsMembers_succ hvalue hmembers⟩

/-- **Whatever is read is a text of what is found.** -/
theorem isTextOf_of_read? {j : Json} {s : String} (h : read? s = some j) : IsTextOf j s := by
  unfold read? at h
  split at h
  · next value rest hvalue =>
    simp only [Option.ite_none_right_eq_some, Option.some.injEq, List.isEmpty_iff] at h
    obtain ⟨hend, rfl⟩ := h
    obtain ⟨ws, ds, hws, hds, hs⟩ := (of_reads _).1 hvalue
    obtain ⟨ws', hws', hrest⟩ := exists_spaces rest
    rw [hend, List.append_nil] at hrest
    exact ⟨ws, ds, ws', hws, hds, hws', by rw [hs, hrest, List.append_assoc]⟩
  · cases h

/-- **The reader accepts the texts of the grammar, and nothing else.** -/
theorem read?_eq_some_iff {j : Json} {s : String} : read? s = some j ↔ IsTextOf j s :=
  ⟨isTextOf_of_read?, read?_of_isTextOf⟩

end Json

end Deposition
