import Deposition.Proofs.Json.Numbers

/-!
# What is written is read

The compact text of a value is one of its texts, without white space and with no more escapes than
there have to be (`Deposition.Json.Proper.isTextOf_compact`). That needs a value to be one that can
be written at all: the literal of a number has to be a number, and a string has to have a text.
Every text can be a string, whatever its characters are (`Deposition.Json.exists_stringText`).
-/

namespace Deposition

namespace Json

/-! ### Strings -/

/-- A unit that is no half of a pair is a character by itself. -/
theorem spell?_unit {n : Nat} (hn : n < 0xd800) (ps : List Piece) :
    spell? (.unit n :: ps) = (spell? ps).map (Char.ofNat n :: ·) := by
  have hlow : ¬(0xd800 ≤ n ∧ n < 0xdc00) := by omega
  have hhigh : ¬(0xdc00 ≤ n ∧ n < 0xe000) := by omega
  have hpair : ¬(0xd800 ≤ n ∧ n < 0xe000) := by omega
  match ps with
  | [] => simp [spell?, hpair]
  | .char c :: ps => simp [spell?, hpair]
  | .unit low :: ps => simp [spell?, hlow, hhigh]

/-- The escape of a control character names it. -/
theorem hexUnit?_control {n : Nat} (hn : n < 0x20) :
    hexUnit? '0' '0' (Nat.digitChar (n / 16)) (Nat.digitChar (n % 16)) = some n := by
  revert n
  decide

/-- **One character in a string** stands there as itself or by its escape. -/
theorem stringText_escape (c : Char) {ps : List Piece} {cs ns : List Char} (h : StringText ps ns)
    (hps : spell? ps = some cs) :
    ∃ ps', StringText ps' (escape c ++ ns) ∧ spell? ps' = some (c :: cs) := by
  have hletter {d : Char} (hd : escaped? d = some c) :
      ∃ ps', StringText ps' (['\\', d] ++ ns) ∧ spell? ps' = some (c :: cs) :=
    ⟨.char c :: ps, .escape hd h, by rw [spell?, hps]; rfl⟩
  unfold escape
  split
  all_goals try exact hletter rfl
  next hquote hbackslash _ _ _ _ _ =>
  split
  · next hcontrol =>
    refine ⟨.unit c.toNat :: ps, .unit (hexUnit?_control hcontrol) h, ?_⟩
    rw [spell?_unit (by omega), hps, Char.ofNat_toNat]
    rfl
  · next hcontrol =>
    exact ⟨.char c :: ps, .char c (not_lt.mp hcontrol) hquote hbackslash h,
      by rw [spell?, hps]; rfl⟩

/-- **Every text can be a string.** -/
theorem exists_stringText (s : String) :
    ∃ ps ns, StringText ps ns ∧ spelled ps = some s ∧ quote (some s) = '"' :: (ns ++ ['"']) := by
  have hchars (cs : List Char) : ∃ ps, StringText ps (cs.flatMap escape) ∧ spell? ps = some cs := by
    induction cs with
    | nil => exact ⟨[], .nil, rfl⟩
    | cons c cs ih =>
      obtain ⟨ps, hps, hspell⟩ := ih
      exact stringText_escape c hps hspell
  obtain ⟨ps, hps, hspell⟩ := hchars s.toList
  exact ⟨ps, _, hps, by rw [spelled, hspell, Option.map_some, String.ofList_toList], rfl⟩

/-! ### Values -/

/-- **A value that can be written**: its numbers are numbers, and its strings have a text. -/
inductive Proper : Json → Prop
  /-- No value. -/
  | null : Proper .null
  /-- A truth value. -/
  | bool (b : Bool) : Proper (.bool b)
  /-- A number. -/
  | number {literal : String} (h : NumberText literal.toList) : Proper (.number literal)
  /-- A string with a text. -/
  | string (s : String) : Proper (.string (some s))
  /-- A list. -/
  | array {items : List Json} (h : ∀ j ∈ items, Proper j) : Proper (.array items)
  /-- An object, every name of which has a text. -/
  | object {members : List (Option String × Json)} (hnames : ∀ m ∈ members, m.1.isSome)
    (h : ∀ m ∈ members, Proper m.2) : Proper (.object members)

theorem Proper.text (s : String) : Proper (text s) := .string s

/-- A whole number is written in decimal. -/
theorem integer_eq (z : ℤ) : integer z = .number (toString z) := by
  unfold integer natural
  simp only [Int.toString_eq_repr, Int.repr_eq_if, Nat.repr_eq_ofList_toDigits]
  obtain hneg | hpos := lt_or_ge z 0
  · have habs : (-z).toNat = z.natAbs := by omega
    rw [if_pos hneg, if_neg (not_le.mpr hneg), habs]
    simp
  · have habs : z.toNat = z.natAbs := by omega
    rw [if_neg (not_lt.mpr hpos), if_pos hpos, habs]

theorem Proper.natural (n : ℕ) : Proper (natural n) := by
  refine .number ?_
  rw [String.toList_ofList]
  exact numberText_toDigits false n

theorem Proper.integer (z : ℤ) : Proper (integer z) := by
  unfold Json.integer
  split
  · refine .number ?_
    rw [String.toList_ofList]
    exact numberText_toDigits true z.natAbs
  · exact .natural z.natAbs

theorem Proper.record {fields : List (String × Json)} (h : ∀ m ∈ fields, Proper m.2) :
    Proper (record fields) :=
  .object (List.forall_mem_map.mpr fun _ _ => rfl) (List.forall_mem_map.mpr h)

/-- Elements with commas between them. -/
theorem writtenItems_itemChars {items : List Json} (hne : items ≠ [])
    (h : ∀ j ∈ items, Written j j.compactChars) : WrittenItems items (itemChars items) := by
  induction items with
  | nil => exact absurd rfl hne
  | cons j items ih =>
    have hj := h j List.mem_cons_self
    match items with
    | [] => simpa [itemChars] using WrittenItems.one spaces_nil hj spaces_nil
    | j' :: items =>
      have hrest := ih (List.cons_ne_nil _ _) fun j hj => h j (List.mem_cons_of_mem _ hj)
      simpa [itemChars] using WrittenItems.cons spaces_nil hj spaces_nil hrest

/-- Members with commas between them. -/
theorem writtenMembers_memberChars {members : List (Option String × Json)} (hne : members ≠ [])
    (hnames : ∀ m ∈ members, m.1.isSome) (h : ∀ m ∈ members, Written m.2 m.2.compactChars) :
    WrittenMembers members (memberChars members) := by
  induction members with
  | nil => exact absurd rfl hne
  | cons m members ih =>
    obtain ⟨name, j⟩ := m
    have hj := h _ List.mem_cons_self
    obtain ⟨name, rfl⟩ := Option.isSome_iff_exists.mp (hnames _ List.mem_cons_self)
    obtain ⟨ps, ns, hns, hname, hquote⟩ := exists_stringText name
    match members with
    | [] =>
      have hone := WrittenMembers.one spaces_nil hns spaces_nil spaces_nil hj spaces_nil
      simpa [memberChars, hquote, hname] using hone
    | m' :: members =>
      have hrest := ih (List.cons_ne_nil _ _) (fun m hm => hnames m (List.mem_cons_of_mem _ hm))
        fun m hm => h m (List.mem_cons_of_mem _ hm)
      have hcons := WrittenMembers.cons spaces_nil hns spaces_nil spaces_nil hj spaces_nil hrest
      simpa [memberChars, hquote, hname] using hcons

/-- **The compact text of a value is a text of it.** -/
theorem Proper.written {j : Json} (h : Proper j) : Written j j.compactChars := by
  induction h with
  | null => simpa [compactChars] using Written.null
  | bool b =>
    cases b
    · simpa [compactChars] using Written.no
    · simpa [compactChars] using Written.yes
  | number h => simpa [compactChars] using Written.number h
  | string s =>
    obtain ⟨ps, ns, hns, hs, hquote⟩ := exists_stringText s
    simpa [compactChars, hquote, hs] using Written.string hns
  | @array items _ ih =>
    cases items with
    | nil => simpa [compactChars, itemChars] using Written.nil spaces_nil
    | cons j items =>
      simpa [compactChars] using Written.array (writtenItems_itemChars (List.cons_ne_nil _ _) ih)
  | @object members hnames _ ih =>
    cases members with
    | nil => simpa [compactChars, memberChars] using Written.empty spaces_nil
    | cons m members =>
      simpa [compactChars] using
        Written.object (writtenMembers_memberChars (List.cons_ne_nil _ _) hnames ih)

theorem Proper.isTextOf_compact {j : Json} (h : Proper j) : IsTextOf j j.compact :=
  ⟨[], _, [], spaces_nil, h.written, spaces_nil, by simp [compact]⟩

/-- **What is written is read.** -/
theorem Proper.read?_compact {j : Json} (h : Proper j) : read? j.compact = some j :=
  read?_of_isTextOf h.isTextOf_compact

end Json

end Deposition
