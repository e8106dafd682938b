import Deposition.Message
import Deposition.Proofs.Json.Accepted

/-!
# What a text from the server says

Two of the server's texts carry numbers: `no_seg` with the id of the segment that is not there yet,
and `new_frames` with two counts in a JSON object. This file says for every text what is read from
it. The id is a whole number with blanks around it that fits 32 bits, and any other text that begins
with `no_seg` is reported as a whole
(`Deposition.ServerMessage.parse_noSegment_eq_ok_iff`). An announcement in an object is one that has
each of the two counts exactly once, as a whole number that fits
(`Deposition.ServerMessage.parse_newFrames_of_object`): the order, the white space and whatever else
the object says do not matter, and nothing that is no such count is taken for another one.

The white space of the first is that of Unicode and the white space of the second is that of JSON,
which is why a number is looked for in two ways.
-/

namespace Deposition

namespace Json

/-! ### Whole numbers -/

/-- A number that has digits only is written without superfluous zeros. -/
theorem NumberText.eq_toDigits {cs : List Char} (h : NumberText cs)
    (hdigits : cs.all Text.isDigit = true) : cs = Nat.toDigits 10 (Text.digitsValue cs) := by
  obtain ⟨sign, whole, fraction, exponent, hsign, hwhole, hfraction, hexponent, rfl⟩ := h
  simp only [List.all_append, Bool.and_eq_true] at hdigits
  obtain ⟨⟨⟨hsign', -⟩, hfraction'⟩, hexponent'⟩ := hdigits
  obtain rfl : sign = [] := by
    obtain rfl | rfl := hsign
    · rfl
    · cases hsign'
  obtain rfl : fraction = [] := by
    obtain rfl | ⟨ds, -, rfl⟩ := hfraction
    · rfl
    · cases hfraction'
  obtain rfl : exponent = [] := by
    obtain rfl | ⟨mark, sign, ds, rfl | rfl, -, -, rfl⟩ := hexponent
    · rfl
    · cases hexponent'
    · cases hexponent'
  rw [List.nil_append, List.append_nil, List.append_nil]
  obtain rfl | ⟨hrun, hzero⟩ := hwhole
  · rfl
  · exact hrun.eq_toDigits hzero

theorem natural?_natural {limit n : Nat} (h : n ≤ limit) :
    natural? limit (natural n) = some n := by
  have hdigits : (Nat.toDigits 10 n).all Text.isDigit = true :=
    List.all_eq_true.mpr (Text.digitRun_toDigits n).2
  simp only [natural?, natural, String.toList_ofList, hdigits, Text.digitsValue_toDigits, h,
    Bool.true_and, decide_true, if_true]

/-- **A whole number is taken from nothing but its decimal digits.** -/
theorem natural?_eq_some_iff {limit n : Nat} {j : Json} {cs : List Char} (h : Written j cs) :
    natural? limit j = some n ↔ j = natural n ∧ n ≤ limit := by
  constructor
  · intro hread
    cases h with
    | number h =>
      simp only [natural?, String.toList_ofList, Option.ite_none_right_eq_some, Bool.and_eq_true,
        decide_eq_true_eq, Option.some.injEq] at hread
      obtain ⟨⟨hdigits, hle⟩, rfl⟩ := hread
      exact ⟨by rw [natural, ← h.eq_toDigits hdigits], hle⟩
    | null | yes | no | string | nil | array | empty | object => cases hread
  · rintro ⟨rfl, hle⟩
    exact natural?_natural hle

/-! ### Members -/

/-- The value of each member is written in the text of the object. -/
theorem WrittenMembers.exists_written {members : List (Option String × Json)} {cs : List Char}
    (h : WrittenMembers members cs) : ∀ m ∈ members, ∃ ds, Written m.2 ds := by
  cases h with
  | one _ _ _ _ h _ =>
    rintro m hm
    rw [List.mem_singleton.mp hm]
    exact ⟨_, h⟩
  | cons _ _ _ _ h _ hrest =>
    rintro m hm
    obtain rfl | hm := List.mem_cons.mp hm
    · exact ⟨_, h⟩
    · exact hrest.exists_written m hm

theorem IsTextOf.exists_written {members : List (Option String × Json)} {s : String}
    (h : IsTextOf (.object members) s) : ∀ m ∈ members, ∃ ds, Written m.2 ds := by
  obtain ⟨ws, cs, ws', -, hobject, -, -⟩ := h
  cases hobject with
  | empty => simp
  | object hmembers => exact hmembers.exists_written

/-- **The only member of this name**, and its value. -/
def Sole (members : List (Option String × Json)) (name : String) (value : Json) : Prop :=
  members.filter (fun m => m.1 == some name) = [(some name, value)]

theorem Sole.mem {members : List (Option String × Json)} {name : String} {value : Json}
    (h : Sole members name value) : (some name, value) ∈ members :=
  List.mem_of_mem_filter (h ▸ List.mem_singleton_self _)

/-- It does not matter where in an object a member stands. -/
theorem Sole.of_perm {fields rest : List (String × Json)} {name : String} {value : Json}
    (h : fields.Perm ((name, value) :: rest)) (hrest : ∀ m ∈ rest, m.1 ≠ name) :
    Sole (fields.map fun (name, value) => (some name, value)) name value := by
  have hothers : rest.filter (fun m => some m.1 == some name) = [] :=
    List.filter_eq_nil_iff.mpr fun m hm => by simpa using hrest m hm
  have hfound := h.filter fun m => some m.1 == some name
  rw [List.filter_cons_of_pos (by simp), hothers, List.perm_singleton] at hfound
  rw [Sole, List.filter_map]
  exact congrArg (List.map _) hfound

/-- A field is found if and only if it is the only one of its name. -/
theorem lookup?_eq_some_iff {members : List (Option String × Json)} {name : String}
    {value : Json} : lookup? members name = some (some value) ↔ Sole members name value := by
  unfold lookup? Sole
  generalize hfound : members.filter (fun m => m.1 == some name) = found
  have hname : ∀ m ∈ found, m.1 = some name := by
    rintro m hm
    rw [← hfound, List.mem_filter] at hm
    exact eq_of_beq hm.2
  match found with
  | [] => simp
  | [(key, value')] =>
    obtain rfl : key = some name := hname _ List.mem_cons_self
    simp
  | _ :: _ :: _ => simp

end Json

/-! ### Announcements -/

namespace Availability

/-- The two counts of an object are looked up by their names and read as whole numbers. -/
theorem ofJson?_object (members : List (Option String × Json)) :
    ofJson? (.object members) =
      if members.all fun (key, _) => key.isSome then
        (Json.lookup? members "l").bind fun latest => (Json.lookup? members "f").bind fun total =>
          (latest.bind (Json.natural? maxWord)).bind fun l =>
            (total.bind (Json.natural? maxWord)).bind fun f =>
              some ⟨UInt32.ofNat l, UInt32.ofNat f⟩
      else none := by
  simp only [ofJson?, Json.fields?, List.mapM_cons, List.mapM_nil]
  split
  · simp [Json.required?, Option.bind_assoc]
  · rfl

theorem toNat_le_maxWord (n : UInt32) : n.toNat ≤ maxWord := Nat.le_of_lt_succ n.toNat_lt

/-- **What an announcement is**: an object with both counts, each given once. -/
theorem ofJson?_object_eq_some_iff {members : List (Option String × Json)} {a : Availability}
    (hwritten : ∀ m ∈ members, ∃ ds, Json.Written m.2 ds) :
    ofJson? (.object members) = some a ↔
      (∀ m ∈ members, m.1.isSome) ∧ Json.Sole members "l" (.natural a.latest.toNat) ∧
        Json.Sole members "f" (.natural a.total.toNat) := by
  simp only [ofJson?_object, Option.ite_none_right_eq_some, List.all_eq_true]
  refine and_congr_right fun _ => ⟨fun h => ?_, fun ⟨hlatest, htotal⟩ => ?_⟩
  · simp only [Option.bind_eq_some_iff] at h
    obtain ⟨_, hlatest, _, htotal, l, ⟨latest, rfl, hl⟩, f, ⟨total, rfl, hf⟩, heq⟩ := h
    cases heq
    rw [Json.lookup?_eq_some_iff] at hlatest htotal
    obtain ⟨ds, hds⟩ := hwritten _ hlatest.mem
    obtain ⟨es, hes⟩ := hwritten _ htotal.mem
    obtain ⟨rfl, hl'⟩ := (Json.natural?_eq_some_iff hds).mp hl
    obtain ⟨rfl, hf'⟩ := (Json.natural?_eq_some_iff hes).mp hf
    rw [UInt32.toNat_ofNat_of_lt' (Nat.lt_succ_of_le hl'),
      UInt32.toNat_ofNat_of_lt' (Nat.lt_succ_of_le hf')]
    exact ⟨hlatest, htotal⟩
  · rw [Json.lookup?_eq_some_iff.mpr hlatest, Json.lookup?_eq_some_iff.mpr htotal]
    simp [Json.natural?_natural (toNat_le_maxWord _)]

end Availability

/-! ### Texts -/

namespace ServerMessage

variable {text payload : String}

theorem parse_newFrames (payload : String) :
    parse ("new_frames" ++ payload) =
      match (Json.read? payload).bind Availability.ofJson? with
      | some available => .ok (.newFrames available)
      | none => .error (.badAnnouncement payload) := by
  have hword (w : String) (hw : "new_frames".toList.isPrefixOf w.toList = false) :
      "new_frames" ++ payload ≠ w := by
    rintro rfl
    simp at hw
  have hread : Text.after? "new_frames" ("new_frames" ++ payload) = some payload :=
    Text.after?_eq_some_iff.mpr rfl
  rw [parse, if_neg (hword _ (by decide)), if_neg (hword _ (by decide)),
    if_neg (hword _ (by decide))]
  split
  · next heq =>
    cases hread.symm.trans heq
    rfl
  · next heq => cases hread.symm.trans heq

theorem parse_noSegment (id : String) :
    parse ("no_seg" ++ id) =
      match Text.wholeNumber? maxWord (Text.trim id) with
      | some id => .ok (.segmentNotReady (UInt32.ofNat id))
      | none => .error (.badSegmentId ("no_seg" ++ id)) := by
  have hword (w : String) (hw : "no_seg".toList.isPrefixOf w.toList = false) :
      "no_seg" ++ id ≠ w := by
    rintro rfl
    simp at hw
  have hother : Text.after? "new_frames" ("no_seg" ++ id) = none := by
    rw [Option.eq_none_iff_forall_ne_some]
    intro payload h
    have heq := congrArg String.toList (Text.after?_eq_some_iff.mp h)
    simp at heq
  have hread : Text.after? "no_seg" ("no_seg" ++ id) = some id :=
    Text.after?_eq_some_iff.mpr rfl
  rw [parse, if_neg (hword _ (by decide)), if_neg (hword _ (by decide)),
    if_neg (hword _ (by decide)), hother]
  dsimp only
  split
  · next heq =>
    cases hread.symm.trans heq
    rfl
  · next heq => cases hread.symm.trans heq

/-- Only a text that begins with `no_seg` says that a segment is not there yet. -/
theorem exists_of_segmentNotReady {id : UInt32} (h : parse text = .ok (.segmentNotReady id)) :
    ∃ rest, text = "no_seg" ++ rest := by
  unfold parse at h
  split at h
  · cases h
  split at h
  · cases h
  split at h
  · cases h
  split at h
  · split at h <;> cases h
  split at h
  · next heq => exact ⟨_, Text.after?_eq_some_iff.mp heq⟩
  · cases h

/-- **The texts that say which segment is not there yet.** -/
theorem parse_noSegment_eq_ok_iff {rest : String} {id : UInt32} :
    parse ("no_seg" ++ rest) = .ok (.segmentNotReady id) ↔
      ∃ before core after, Text.Blanks before ∧ Text.NumeralOf id.toNat core ∧
        Text.Blanks after ∧ rest.toList = before ++ core ++ after := by
  have hread := @Text.wholeNumber?_trim_eq_some_iff maxWord id.toNat rest
  rw [parse_noSegment, ← and_iff_left (a := ∃ _, _) (Availability.toNat_le_maxWord id), ← hread]
  split
  · next n hn =>
    have hlt : n < 2 ^ 32 := Nat.lt_succ_of_le (Text.wholeNumber?_eq_some_iff.mp hn).2
    simp only [Except.ok.injEq, segmentNotReady.injEq, hn, Option.some.injEq]
    exact ⟨fun h => by rw [← h, UInt32.toNat_ofNat_of_lt' hlt],
      fun h => by rw [h, UInt32.ofNat_toNat]⟩
  · next hnone => simp [hnone]

/-- **The announcements that an object can be.** -/
theorem parse_newFrames_of_object {members : List (Option String × Json)}
    (h : Json.IsTextOf (.object members) payload) {a : Availability} :
    parse ("new_frames" ++ payload) = .ok (.newFrames a) ↔
      (∀ m ∈ members, m.1.isSome) ∧ Json.Sole members "l" (.natural a.latest.toNat) ∧
        Json.Sole members "f" (.natural a.total.toNat) := by
  rw [parse_newFrames, Json.read?_of_isTextOf h, Option.bind_some,
    ← Availability.ofJson?_object_eq_some_iff h.exists_written]
  split
  · next heq => simp [heq]
  · next heq => simp [heq]

theorem parse_newFrames_cases (payload : String) :
    (∃ a, parse ("new_frames" ++ payload) = .ok (.newFrames a)) ∨
      parse ("new_frames" ++ payload) = .error (.badAnnouncement payload) := by
  rw [parse_newFrames]
  split
  · exact .inl ⟨_, rfl⟩
  · exact .inr rfl

theorem parse_noSegment_cases (rest : String) :
    (∃ id, parse ("no_seg" ++ rest) = .ok (.segmentNotReady id)) ∨
      parse ("no_seg" ++ rest) = .error (.badSegmentId ("no_seg" ++ rest)) := by
  rw [parse_noSegment]
  split
  · exact .inl ⟨_, rfl⟩
  · exact .inr rfl

/-- **The server's numbers are read exactly.** An id stands in digits behind `no_seg`, with blanks
around it, and whatever else follows the word is reported with it. The two counts stand in an object
behind `new_frames`, in either order and among any other fields, and an object in which one of them
is not given, is given twice or is no number of 32 bits is reported. -/
theorem parse_exact :
    (∀ (text : String) (id : UInt32), parse text = .ok (.segmentNotReady id) ↔
      ∃ before core after, Text.Blanks before ∧ Text.NumeralOf id.toNat core ∧
        Text.Blanks after ∧ text.toList = "no_seg".toList ++ (before ++ core ++ after)) ∧
    (∀ text : String, "no_seg".toList <+: text.toList →
      (∀ id, parse text ≠ .ok (.segmentNotReady id)) → parse text = .error (.badSegmentId text)) ∧
    (∀ (l f : UInt32) (fields extra : List (String × Json)) (payload : String),
      Json.IsTextOf (.record fields) payload →
      fields.Perm (("l", .natural l.toNat) :: ("f", .natural f.toNat) :: extra) →
      (∀ m ∈ extra, m.1 ≠ "l" ∧ m.1 ≠ "f") →
      parse ("new_frames" ++ payload) = .ok (.newFrames ⟨l, f⟩)) ∧
    (∀ (members : List (Option String × Json)) (payload name : String),
      Json.IsTextOf (.object members) payload → name = "l" ∨ name = "f" →
      (∀ n ≤ maxWord, ¬Json.Sole members name (.natural n)) →
      parse ("new_frames" ++ payload) = .error (.badAnnouncement payload)) := by
  refine ⟨fun text id => ⟨fun h => ?_, ?_⟩, ?_, ?_, ?_⟩
  · obtain ⟨rest, rfl⟩ := exists_of_segmentNotReady h
    obtain ⟨before, core, after, hbefore, hcore, hafter, hrest⟩ :=
      parse_noSegment_eq_ok_iff.mp h
    exact ⟨before, core, after, hbefore, hcore, hafter, by rw [String.toList_append, hrest]⟩
  · rintro ⟨before, core, after, hbefore, hcore, hafter, htext⟩
    obtain rfl : text = "no_seg" ++ String.ofList (before ++ core ++ after) := by
      rw [← String.toList_inj, htext, String.toList_append, String.toList_ofList (l := _ ++ _)]
    exact parse_noSegment_eq_ok_iff.mpr
      ⟨before, core, after, hbefore, hcore, hafter, String.toList_ofList⟩
  · rintro text ⟨rest, hrest⟩ hid
    obtain rfl : text = "no_seg" ++ String.ofList rest := by
      rw [← String.toList_inj, ← hrest, String.toList_append, String.toList_ofList (l := rest)]
    obtain ⟨id, h⟩ | h := parse_noSegment_cases (String.ofList rest)
    · exact absurd h (hid id)
    · exact h
  · intro l f fields extra payload htext hperm hextra
    refine (parse_newFrames_of_object htext).mpr ⟨List.forall_mem_map.mpr fun _ _ => rfl, ?_, ?_⟩
    · refine Json.Sole.of_perm hperm fun m hm => ?_
      obtain rfl | hm := List.mem_cons.mp hm
      · simp
      · exact (hextra m hm).1
    · refine Json.Sole.of_perm (hperm.trans (.swap _ _ _)) fun m hm => ?_
      obtain rfl | hm := List.mem_cons.mp hm
      · simp
      · exact (hextra m hm).2
  · intro members payload name htext hname hsole
    obtain ⟨a, h⟩ | h := parse_newFrames_cases payload
    · obtain ⟨-, hlatest, htotal⟩ := (parse_newFrames_of_object htext).mp h
      obtain rfl | rfl := hname
      · exact absurd hlatest (hsole _ (Availability.toNat_le_maxWord _))
      · exact absurd htotal (hsole _ (Availability.toNat_le_maxWord _))
    · exact h

/-- An id behind zeros and a sign, the first number that is none, two counts with white space around
them and in the other order, and a count below zero. -/
theorem parse_exact_texts :
    parse "no_seg +007\u3000" = .ok (.segmentNotReady 7) ∧
    parse "no_seg 4294967296" = .error (.badSegmentId "no_seg 4294967296") ∧
    parse ("new_frames" ++ " \x7b\"f\" : 30,\n\"x\":[1.5],\"l\":2\x7d") = .ok (.newFrames ⟨2, 30⟩) ∧
    parse ("new_frames" ++ "\x7b\"l\":-1,\"f\":30\x7d") =
      .error (.badAnnouncement "\x7b\"l\":-1,\"f\":30\x7d") := by
  obtain ⟨hid, hother, hcounts, hbad⟩ := parse_exact
  refine ⟨?_, ?_, ?_, ?_⟩
  · exact (hid _ _).mpr ⟨[' '], "+007".toList, ['\u3000'], by simp [Text.Blanks]; decide,
      ⟨['+'], 2, .inr rfl, by cbv⟩, by simp [Text.Blanks]; decide, by cbv⟩
  · refine hother _ (by decide) fun id h => ?_
    have hnone : (parse "no_seg 4294967296").toOption = none := by decide +kernel
    rw [h] at hnone
    cases hnone
  · refine hcounts 2 30 [("f", .natural 30), ("x", .array [.number "1.5"]), ("l", .natural 2)]
      [("x", .array [.number "1.5"])] _ (Json.read?_eq_some_iff.mp (by cbv)) ?_ (by simp)
    exact ((List.Perm.swap _ _ _).cons _).trans (.swap _ _ _)
  · refine hbad [(some "l", .number "-1"), (some "f", .natural 30)] _ "l"
      (Json.read?_eq_some_iff.mp (by cbv)) (.inl rfl) fun n hn h => ?_
    -- the literal has a sign, and a whole number has none
    obtain ⟨-, heq⟩ := Prod.mk.inj (List.head_eq_of_cons_eq h)
    have hread := Json.natural?_natural hn
    rw [← heq] at hread
    cases hread

end ServerMessage

end Deposition
