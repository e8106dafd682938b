import Deposition.Json.Reader
import Deposition.Proofs.Text.Decimals
import Mathlib.Data.List.DropRight

/-!
# What is JSON text

The same value can be written in many ways: with white space between the tokens or without, a
character in a string as itself or by an escape. This file says which texts a value has
(`Deposition.Json.Written`), construct by construct and without a word on how they are read, and
shows that the reader finds the value behind each of them
(`Deposition.Json.read?_of_isTextOf`). So what is proved of all texts of a value holds of whatever
the other side of the connection chooses to send.

A reader goes from left to right and looks at what comes next. For that reason the lemmas on the
parts of the grammar are about a part *with something behind it*; only a number has to be told
apart from what follows (`Deposition.Json.EndsNumber`), every other construct ends by itself.
-/

namespace Deposition

namespace Json

/-! ### White space -/

/-- White space between tokens, or nothing. -/
def Spaces (cs : List Char) : Prop := ∀ c ∈ cs, isSpace c = true

theorem spaces_nil : Spaces [] := fun _ h => by cases h

/-- A text that does not begin with white space. -/
def Tight (cs : List Char) : Prop := ∀ c ∈ cs.head?, isSpace c = false

theorem skipSpace_of_tight {cs : List Char} (h : Tight cs) : skipSpace cs = cs := by
  cases cs with
  | nil => rfl
  | cons c cs => exact List.dropWhile_cons_of_neg (by simp [h c rfl])

/-- White space is skipped, and nothing else is. -/
theorem skipSpace_append {ws cs : List Char} (hws : Spaces ws) (h : Tight cs) :
    skipSpace (ws ++ cs) = cs := by
  rw [skipSpace, List.dropWhile_append_of_pos hws]
  exact skipSpace_of_tight h

/-! ### Strings -/

/-- **What stands between the quotes of a string**, and the pieces that it gives: a character for
itself, unless it is a quote, a backslash or a control; one of the escapes of one letter; or four
hexadecimal digits. -/
inductive StringText : List Piece → List Char → Prop
  /-- The end. -/
  | nil : StringText [] []
  /-- A character stands for itself. -/
  | char {ps : List Piece} {cs : List Char} (c : Char) (hcontrol : 0x20 ≤ c.toNat)
    (hquote : c ≠ '"') (hbackslash : c ≠ '\\') (h : StringText ps cs) :
    StringText (.char c :: ps) (c :: cs)
  /-- An escape of one letter. -/
  | escape {ps : List Piece} {cs : List Char} {c d : Char} (hd : escaped? c = some d)
    (h : StringText ps cs) : StringText (.char d :: ps) ('\\' :: c :: cs)
  /-- An escape of four hexadecimal digits. -/
  | unit {ps : List Piece} {cs : List Char} {a b c d : Char} {n : Nat}
    (hn : hexUnit? a b c d = some n) (h : StringText ps cs) :
    StringText (.unit n :: ps) ('\\' :: 'u' :: a :: b :: c :: d :: cs)

/-- The text that pieces spell, if they spell one. -/
def spelled (ps : List Piece) : Option String := (spell? ps).map String.ofList

theorem pieces?_append {ps : List Piece} {cs : List Char} (h : StringText ps cs)
    (rest : List Char) : pieces? (cs ++ '"' :: rest) = some (ps, rest) := by
  induction h with
  | nil => rfl
  | char c hcontrol hquote hbackslash _ ih =>
    rw [List.cons_append, pieces?.eq_5]
    · simp [ih, hbackslash, Nat.not_lt.mpr hcontrol]
    all_goals simp_all
  | @escape _ _ c d hd _ ih =>
    have hu : c ≠ 'u' := by
      rintro rfl
      cases hd
    rw [List.cons_append, List.cons_append, pieces?.eq_4]
    · simp [hd, ih]
    · rintro a b x y rest rfl
      exact absurd rfl hu
  | unit hn _ ih => simp [pieces?, hn, ih]

theorem string?_append {ps : List Piece} {cs : List Char} (h : StringText ps cs)
    (rest : List Char) : string? (cs ++ '"' :: rest) = some (spelled ps, rest) := by
  rw [string?, pieces?_append h]
  rfl

/-! ### Numbers -/

/-- The whole part of a number: a zero alone, or digits that do not begin with one. -/
def WholeText (cs : List Char) : Prop := cs = ['0'] ∨ Text.DigitRun cs ∧ cs.head? ≠ some '0'

/-- The fraction of a number, if it has one. -/
def FractionText (cs : List Char) : Prop := cs = [] ∨ ∃ ds, Text.DigitRun ds ∧ cs = '.' :: ds

/-- The exponent of a number, if it has one. -/
def ExponentText (cs : List Char) : Prop :=
  cs = [] ∨ ∃ mark sign ds, (mark = 'e' ∨ mark = 'E') ∧ (sign = [] ∨ sign = ['+'] ∨ sign = ['-']) ∧
    Text.DigitRun ds ∧ cs = mark :: (sign ++ ds)

/-- **How a number is written.** -/
def NumberText (cs : List Char) : Prop :=
  ∃ sign whole fraction exponent, (sign = [] ∨ sign = ['-']) ∧ WholeText whole ∧
    FractionText fraction ∧ ExponentText exponent ∧ cs = sign ++ whole ++ fraction ++ exponent

/-- What can follow a number without being taken for more of it. -/
def EndsNumber (cs : List Char) : Prop :=
  ∀ c ∈ cs.head?, Text.isDigit c = false ∧ c ≠ '.' ∧ c ≠ 'e' ∧ c ≠ 'E'

/-- A text that does not begin with a digit. -/
def NoDigit (cs : List Char) : Prop := ∀ c ∈ cs.head?, Text.isDigit c = false

theorem EndsNumber.noDigit {cs : List Char} (h : EndsNumber cs) : NoDigit cs :=
  fun c hc => (h c hc).1

/-- Digits end where something else begins. -/
theorem span_digits {ds rest : List Char} (hds : ∀ c ∈ ds, Text.isDigit c = true)
    (hrest : NoDigit rest) :
    (ds ++ rest).takeWhile Text.isDigit = ds ∧ (ds ++ rest).dropWhile Text.isDigit = rest := by
  have hsplit : rest.takeWhile Text.isDigit = [] ∧ rest.dropWhile Text.isDigit = rest := by
    cases rest with
    | nil => exact ⟨rfl, rfl⟩
    | cons c rest => simp [hrest c rfl]
  rw [List.takeWhile_append_of_pos hds, List.dropWhile_append_of_pos hds, hsplit.1, hsplit.2,
    List.append_nil]
  exact ⟨rfl, rfl⟩

theorem digits?_append {ds rest : List Char} (hds : Text.DigitRun ds) (hrest : NoDigit rest) :
    digits? (ds ++ rest) = some (ds, rest) := by
  obtain ⟨htake, hdrop⟩ := span_digits hds.2 hrest
  rw [digits?, htake, hdrop, if_neg (by simpa using hds.1)]

theorem whole?_append {ds rest : List Char} (hds : WholeText ds) (hrest : NoDigit rest) :
    whole? (ds ++ rest) = some (ds, rest) := by
  obtain rfl | ⟨hrun, hzero⟩ := hds
  · rfl
  · cases ds with
    | nil => exact absurd rfl hrun.1
    | cons d ds =>
      rw [List.cons_append, whole?, ← List.cons_append, digits?_append hrun hrest]
      rintro cs ⟨rfl, -⟩
      exact hzero rfl

theorem fraction?_append {fs rest : List Char} (hfs : FractionText fs) (hrest : NoDigit rest)
    (hpoint : ∀ c ∈ rest.head?, c ≠ '.') : fraction? (fs ++ rest) = some (fs, rest) := by
  obtain rfl | ⟨ds, hds, rfl⟩ := hfs
  · rw [List.nil_append, fraction?]
    rintro cs rfl
    exact hpoint '.' rfl rfl
  · rw [List.cons_append, fraction?, digits?_append hds hrest]
    rfl

theorem exponent?_append {es rest : List Char} (hes : ExponentText es) (hrest : EndsNumber rest) :
    exponent? (es ++ rest) = some (es, rest) := by
  obtain rfl | ⟨mark, sign, ds, hmark, hsign, hds, rfl⟩ := hes
  · cases rest with
    | nil => rfl
    | cons c rest =>
      obtain ⟨-, -, he, hE⟩ := hrest c rfl
      simp [exponent?, he, hE]
  · have hmark : (mark == 'e' || mark == 'E') = true := by simpa using hmark
    have hdigits := digits?_append hds hrest.noDigit
    obtain rfl | rfl | rfl := hsign
    · cases ds with
      | nil => exact absurd rfl hds.1
      | cons d ds =>
        -- a digit is none of the two signs
        have hd := hds.2 d List.mem_cons_self
        simp only [List.nil_append, List.cons_append, exponent?, hmark, if_true] at hdigits ⊢
        split
        · next heq =>
          obtain ⟨rfl, -⟩ := List.cons.inj heq
          cases hd
        · next heq =>
          obtain ⟨rfl, -⟩ := List.cons.inj heq
          cases hd
        · rw [hdigits]
          rfl
    · simp [exponent?, hmark, hdigits]
    · simp [exponent?, hmark, hdigits]

/-- A fraction or an exponent does not continue the digits in front of it. -/
theorem ExponentText.noDigit_append {es rest : List Char} (hes : ExponentText es)
    (hrest : EndsNumber rest) : NoDigit (es ++ rest) ∧ ∀ c ∈ (es ++ rest).head?, c ≠ '.' := by
  obtain rfl | ⟨mark, sign, ds, hmark, -, -, rfl⟩ := hes
  · exact ⟨hrest.noDigit, fun c hc => (hrest c hc).2.1⟩
  · obtain rfl | rfl := hmark <;> simp [NoDigit] <;> decide

theorem FractionText.noDigit_append {fs rest : List Char} (hfs : FractionText fs)
    (hrest : NoDigit rest) : NoDigit (fs ++ rest) := by
  obtain rfl | ⟨ds, -, rfl⟩ := hfs
  · exact hrest
  · rintro c hc
    obtain rfl : '.' = c := by simpa using hc
    rfl

theorem WholeText.exists_cons {ds : List Char} (h : WholeText ds) :
    ∃ d es, ds = d :: es ∧ Text.isDigit d = true := by
  obtain rfl | ⟨hrun, -⟩ := h
  · exact ⟨'0', [], rfl, rfl⟩
  · cases ds with
    | nil => exact absurd rfl hrun.1
    | cons d es => exact ⟨d, es, rfl, hrun.2 d List.mem_cons_self⟩

/-- **A number is read as it is written.** -/
theorem number?_append {cs rest : List Char} (h : NumberText cs) (hrest : EndsNumber rest) :
    number? (cs ++ rest) = some (String.ofList cs, rest) := by
  obtain ⟨sign, whole, fraction, exponent, hsign, hwhole, hfraction, hexponent, rfl⟩ := h
  obtain ⟨hdigit, hpoint⟩ := hexponent.noDigit_append hrest
  have hwhole' := whole?_append hwhole (hfraction.noDigit_append hdigit)
  have hfraction' := fraction?_append hfraction hdigit hpoint
  have hexponent' := exponent?_append hexponent hrest
  obtain rfl | rfl := hsign
  · obtain ⟨d, ds, rfl, hd⟩ := hwhole.exists_cons
    simp only [List.append_assoc, List.nil_append, List.cons_append, number?] at hwhole' ⊢
    split
    · next heq =>
      -- a digit is no minus sign
      obtain ⟨rfl, -⟩ := List.cons.inj heq
      cases hd
    · simp [hwhole', hfraction', hexponent', String.append_assoc]
  · simp [number?, hwhole', hfraction', hexponent']

/-! ### Values -/

mutual

/-- **A text of a value**, without white space around it. -/
inductive Written : Json → List Char → Prop
  /-- No value. -/
  | null : Written .null ['n', 'u', 'l', 'l']
  /-- The truth value that holds. -/
  | yes : Written (.bool true) ['t', 'r', 'u', 'e']
  /-- The truth value that does not. -/
  | no : Written (.bool false) ['f', 'a', 'l', 's', 'e']
  /-- A number is kept as it is written. -/
  | number {cs : List Char} (h : NumberText cs) : Written (.number (String.ofList cs)) cs
  /-- A string. -/
  | string {ps : List Piece} {cs : List Char} (h : StringText ps cs) :
    Written (.string (spelled ps)) ('"' :: (cs ++ ['"']))
  /-- A list without elements. -/
  | nil {ws : List Char} (hws : Spaces ws) : Written (.array []) ('[' :: (ws ++ [']']))
  /-- A list of elements. -/
  | array {items : List Json} {cs : List Char} (h : WrittenItems items cs) :
    Written (.array items) ('[' :: (cs ++ [']']))
  /-- An object without members. -/
  | empty {ws : List Char} (hws : Spaces ws) : Written (.object []) ('{' :: (ws ++ ['}']))
  /-- An object with members. -/
  | object {members : List (Option String × Json)} {cs : List Char}
    (h : WrittenMembers members cs) : Written (.object members) ('{' :: (cs ++ ['}']))

/-- **A text of elements**, of which there is one at least, with commas between them. -/
inductive WrittenItems : List Json → List Char → Prop
  /-- The last element. -/
  | one {ws ws' cs : List Char} {j : Json} (hws : Spaces ws) (h : Written j cs)
    (hws' : Spaces ws') : WrittenItems [j] (ws ++ cs ++ ws')
  /-- An element with others behind it. -/
  | cons {ws ws' cs ds : List Char} {j : Json} {js : List Json} (hws : Spaces ws)
    (h : Written j cs) (hws' : Spaces ws') (hrest : WrittenItems js ds) :
    WrittenItems (j :: js) (ws ++ cs ++ ws' ++ ',' :: ds)

/-- **A text of members**, of which there is one at least, with commas between them. -/
inductive WrittenMembers : List (Option String × Json) → List Char → Prop
  /-- The last member. -/
  | one {v w x y ns cs : List Char} {ps : List Piece} {j : Json} (hv : Spaces v)
    (hname : StringText ps ns) (hw : Spaces w) (hx : Spaces x) (h : Written j cs)
    (hy : Spaces y) :
    WrittenMembers [(spelled ps, j)] (v ++ '"' :: (ns ++ '"' :: (w ++ ':' :: (x ++ cs ++ y))))
  /-- A member with others behind it. -/
  | cons {v w x y ns cs ds : List Char} {ps : List Piece} {j : Json}
    {members : List (Option String × Json)} (hv : Spaces v) (hname : StringText ps ns)
    (hw : Spaces w) (hx : Spaces x) (h : Written j cs) (hy : Spaces y)
    (hrest : WrittenMembers members ds) :
    WrittenMembers ((spelled ps, j) :: members)
      (v ++ '"' :: (ns ++ '"' :: (w ++ ':' :: (x ++ cs ++ y ++ ',' :: ds))))

end

/-- **A text of a value**, with white space around it or without. -/
def IsTextOf (j : Json) (s : String) : Prop :=
  ∃ ws cs ws', Spaces ws ∧ Written j cs ∧ Spaces ws' ∧ s.toList = ws ++ cs ++ ws'

theorem NumberText.exists_cons {cs : List Char} (h : NumberText cs) :
    ∃ d es, cs = d :: es ∧ (d = '-' ∨ Text.isDigit d = true) := by
  obtain ⟨sign, whole, fraction, exponent, hsign, hwhole, -, -, rfl⟩ := h
  obtain rfl | rfl := hsign
  · obtain ⟨d, ds, rfl, hd⟩ := hwhole.exists_cons
    exact ⟨d, _, rfl, .inr hd⟩
  · exact ⟨'-', _, rfl, .inl rfl⟩

/-- What a number begins with is no white space, and nothing else begins with it. -/
theorem isSpace_of_number {d : Char} (h : d = '-' ∨ Text.isDigit d = true) :
    isSpace d = false ∧ d ≠ 'n' ∧ d ≠ 't' ∧ d ≠ 'f' ∧ d ≠ '"' ∧ d ≠ '[' ∧ d ≠ '{' := by
  obtain rfl | h := h
  · decide
  · refine ⟨?_, ?_, ?_, ?_, ?_, ?_, ?_⟩
    · cases hspace : isSpace d
      · rfl
      · simp only [isSpace, Bool.or_eq_true, beq_iff_eq] at hspace
        obtain ((rfl | rfl) | rfl) | rfl := hspace <;> cases h
    all_goals rintro rfl; cases h

/-- A value does not begin with white space, and it does not begin like the end of a list. -/
theorem Written.exists_cons {j : Json} {cs : List Char} (h : Written j cs) :
    ∃ c ds, cs = c :: ds ∧ isSpace c = false ∧ c ≠ ']' := by
  cases h with
  | number h =>
    obtain ⟨d, es, rfl, hd⟩ := h.exists_cons
    refine ⟨d, es, rfl, (isSpace_of_number hd).1, ?_⟩
    rintro rfl
    obtain hd | hd := hd <;> cases hd
  | null | yes | no | string | nil | array | empty | object => exact ⟨_, _, rfl, rfl, by decide⟩

/-- What stands behind an element or a member does not continue a number. -/
theorem endsNumber_append {ws rest : List Char} (hws : Spaces ws) (hrest : EndsNumber rest) :
    EndsNumber (ws ++ rest) := by
  cases ws with
  | nil => exact hrest
  | cons c ws =>
    rintro d hd
    obtain rfl : c = d := by simpa using hd
    have hspace := hws c List.mem_cons_self
    simp only [isSpace, Bool.or_eq_true, beq_iff_eq] at hspace
    obtain ((rfl | rfl) | rfl) | rfl := hspace <;> decide

theorem Written.tight_append {j : Json} {cs : List Char} (h : Written j cs) (rest : List Char) :
    Tight (cs ++ rest) := by
  obtain ⟨c, ds, rfl, hc, -⟩ := h.exists_cons
  rintro d hd
  obtain rfl : c = d := by simpa using hd
  exact hc

theorem tight_cons {c : Char} (h : isSpace c = false) (cs : List Char) : Tight (c :: cs) := by
  rintro d hd
  obtain rfl : c = d := by simpa using hd
  exact h

theorem endsNumber_cons {c : Char} (h : Text.isDigit c = false ∧ c ≠ '.' ∧ c ≠ 'e' ∧ c ≠ 'E')
    (cs : List Char) : EndsNumber (c :: cs) := by
  rintro d hd
  obtain rfl : c = d := by simpa using hd
  exact h

theorem skipSpace_skipSpace (cs : List Char) : skipSpace (skipSpace cs) = skipSpace cs :=
  List.dropWhile_idempotent _ _

/-- Elements do not begin like the end of a list. -/
theorem WrittenItems.skipSpace_ne {js : List Json} {cs : List Char} (h : WrittenItems js cs)
    (rest rest' : List Char) : skipSpace (cs ++ rest) ≠ ']' :: rest' := by
  have key {ws cs ds : List Char} {j : Json} (hws : Spaces ws) (h : Written j cs) :
      skipSpace (ws ++ (cs ++ ds)) ≠ ']' :: rest' := by
    obtain ⟨c, es, rfl, hc, hbracket⟩ := h.exists_cons
    rw [List.cons_append, skipSpace_append hws (tight_cons hc _)]
    exact fun heq => hbracket (List.cons.inj heq).1
  cases h with
  | one hws h _ => simpa only [List.append_assoc] using key hws h
  | cons hws h _ _ => simpa only [List.append_assoc] using key hws h

/-- Members begin with a name. -/
theorem WrittenMembers.skipSpace_eq {members : List (Option String × Json)} {cs : List Char}
    (h : WrittenMembers members cs) (rest : List Char) :
    ∃ ds, skipSpace (cs ++ rest) = '"' :: ds := by
  cases h with
  | one hv => exact ⟨_, by rw [List.append_assoc, List.cons_append,
      skipSpace_append hv (tight_cons (by decide) _)]⟩
  | cons hv => exact ⟨_, by rw [List.append_assoc, List.cons_append,
      skipSpace_append hv (tight_cons (by decide) _)]⟩

mutual

/-- **A value is found behind each of its texts**, with any white space in front and anything behind
it that cannot continue a number. -/
theorem value?_of_written {j : Json} {text cs rest : List Char} {fuel : Nat} (h : Written j cs)
    (htext : skipSpace text = cs ++ rest) (hrest : EndsNumber rest) (hfuel : cs.length < fuel) :
    value? fuel text = some (j, rest) := by
  obtain ⟨fuel, rfl⟩ : ∃ n, fuel = n + 1 := ⟨fuel - 1, by omega⟩
  rw [value?, htext]
  cases h with
  | null => rfl
  | yes => rfl
  | no => rfl
  | number h =>
    have hread := number?_append h hrest
    obtain ⟨d, es, rfl, hd⟩ := h.exists_cons
    obtain ⟨-, hn, ht, hf, hquote, hbracket, hbrace⟩ := isSpace_of_number hd
    simp only [List.cons_append] at hread ⊢
    split
    all_goals try (next heq => exact absurd (List.cons.inj heq).1 (by assumption))
    rw [hread]
    rfl
  | string h =>
    have hread := string?_append h rest
    simp [hread]
  | nil hws => simp [skipSpace_append hws (tight_cons (c := ']') (by decide) _)]
  | @array items cs h =>
    have hread : items? fuel (skipSpace (cs ++ ']' :: rest)) = some (items, rest) :=
      items?_of_written h rest (skipSpace_skipSpace _) (by simpa using hfuel)
    simp [h.skipSpace_ne (']' :: rest), hread]
  | empty hws => simp [skipSpace_append hws (tight_cons (c := '}') (by decide) _)]
  | @object members cs h =>
    have hread : members? fuel (skipSpace (cs ++ '}' :: rest)) = some (members, rest) :=
      members?_of_written h rest (skipSpace_skipSpace _) (by simpa using hfuel)
    obtain ⟨ds, hds⟩ := h.skipSpace_eq ('}' :: rest)
    simp [hds] at hread ⊢
    simp [hread]

/-- The elements of a list are found, and the end of the list with them. -/
theorem items?_of_written {js : List Json} {text cs : List Char} {fuel : Nat}
    (h : WrittenItems js cs) (rest : List Char)
    (htext : skipSpace text = skipSpace (cs ++ ']' :: rest)) (hfuel : cs.length + 1 < fuel) :
    items? fuel text = some (js, rest) := by
  obtain ⟨fuel, rfl⟩ : ∃ n, fuel = n + 1 := ⟨fuel - 1, by omega⟩
  rw [items?]
  cases h with
  | @one ws ws' cs j hws h hws' =>
    have hends := endsNumber_append hws' (endsNumber_cons (c := ']') (by decide) rest)
    rw [List.append_assoc, List.append_assoc, skipSpace_append hws (h.tight_append _)] at htext
    rw [value?_of_written h htext hends (by simp at hfuel; omega)]
    simp [skipSpace_append hws' (tight_cons (c := ']') (by decide) _)]
  | @cons ws ws' cs ds j js hws h hws' hrest =>
    have hcomma : EndsNumber (',' :: (ds ++ ']' :: rest)) := endsNumber_cons (by decide) _
    have hends := endsNumber_append hws' hcomma
    simp only [List.append_assoc, List.cons_append] at htext
    rw [skipSpace_append hws (h.tight_append _)] at htext
    obtain ⟨c, es, rfl, -, -⟩ := h.exists_cons
    have hread : items? fuel (ds ++ ']' :: rest) = some (js, rest) :=
      items?_of_written hrest rest rfl (by simp at hfuel; omega)
    rw [value?_of_written h htext hends (by simp at hfuel ⊢; omega)]
    simp [skipSpace_append hws' (tight_cons (c := ',') (by decide) _), hread]

/-- The members of an object are found, and the end of the object with them. -/
theorem members?_of_written {members : List (Option String × Json)} {text cs : List Char}
    {fuel : Nat} (h : WrittenMembers members cs) (rest : List Char)
    (htext : skipSpace text = skipSpace (cs ++ '}' :: rest)) (hfuel : cs.length + 1 < fuel) :
    members? fuel text = some (members, rest) := by
  obtain ⟨fuel, rfl⟩ : ∃ n, fuel = n + 1 := ⟨fuel - 1, by omega⟩
  rw [members?, htext]
  cases h with
  | @one v w x y ns cs ps j hv hname hw hx h hy =>
    have hends := endsNumber_append hy (endsNumber_cons (c := '}') (by decide) rest)
    have hvalue : value? fuel (x ++ (cs ++ (y ++ '}' :: rest))) = some (j, y ++ '}' :: rest) :=
      value?_of_written h (skipSpace_append hx (h.tight_append _)) hends (by simp at hfuel; omega)
    simp [skipSpace_append hv (tight_cons (c := '"') (by decide) _), string?_append hname,
      skipSpace_append hw (tight_cons (c := ':') (by decide) _), hvalue,
      skipSpace_append hy (tight_cons (c := '}') (by decide) _)]
  | @cons v w x y ns cs ds ps j members hv hname hw hx h hy hrest =>
    have hends := endsNumber_append hy (endsNumber_cons (c := ',') (by decide) (ds ++ '}' :: rest))
    have hvalue : value? fuel (x ++ (cs ++ (y ++ ',' :: (ds ++ '}' :: rest)))) =
        some (j, y ++ ',' :: (ds ++ '}' :: rest)) :=
      value?_of_written h (skipSpace_append hx (h.tight_append _)) hends (by simp at hfuel; omega)
    have hmembers : members? fuel (ds ++ '}' :: rest) = some (members, rest) :=
      members?_of_written hrest rest rfl (by simp at hfuel; omega)
    simp [skipSpace_append hv (tight_cons (c := '"') (by decide) _), string?_append hname,
      skipSpace_append hw (tight_cons (c := ':') (by decide) _), hvalue,
      skipSpace_append hy (tight_cons (c := ',') (by decide) _), hmembers]

end

/-- **Every text of a value is read as that value.** -/
theorem read?_of_isTextOf {j : Json} {s : String} (h : IsTextOf j s) : read? s = some j := by
  obtain ⟨ws, cs, ws', hws, hj, hws', hs⟩ := h
  have hends : EndsNumber (ws' ++ []) := endsNumber_append hws' (by simp [EndsNumber])
  rw [List.append_nil] at hends
  have hvalue : value? (2 * s.length + 2) s.toList = some (j, ws') :=
    value?_of_written hj
      (by rw [hs, List.append_assoc, skipSpace_append hws (hj.tight_append _)]) hends
      (by rw [← String.length_toList, hs, List.length_append, List.length_append]; omega)
  have hend : skipSpace (ws' ++ []) = [] := skipSpace_append hws' (by simp [Tight])
  rw [List.append_nil] at hend
  simp [read?, hvalue, hend]

end Json

end Deposition
