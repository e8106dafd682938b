import Deposition.Preferences
import Deposition.Proofs.Message.Reading

/-!
# What a settings file gives

A settings file is an object with any of the fields in it, in any order, with white space of any
amount and with members that are nobody's business. What it gives is kept in a
`Deposition.Preferences.Given`, whose numbers are words of 64 bits, so that there is nothing in it
that a file could not say. A file that is not there gives nothing.

Reading such a file never fails, and what is read is what is given, with the usual value for
everything else (`Deposition.Preferences.ofFile_of_gives`).
-/

namespace Deposition

namespace Json

/-! ### Some of the fields -/

/-- The members of an object that has some of its fields. -/
def givenMembers (entries : List (String × Option Json)) : List (String × Json) :=
  entries.filterMap fun (name, value) => value.map (name, ·)

variable {entries : List (String × Option Json)} {fields extra : List (String × Json)}

theorem mem_givenMembers {m : String × Json} (h : m ∈ givenMembers entries) :
    m.1 ∈ entries.map Prod.fst := by
  obtain ⟨⟨name, value⟩, hmem, hm⟩ := List.mem_filterMap.mp h
  obtain ⟨j, -, rfl⟩ := Option.map_eq_some_iff.mp hm
  exact List.mem_map_of_mem hmem

theorem lookup?_eq_none_of {name : String} (h : ∀ m ∈ fields, m.1 ≠ name) :
    lookup? (fields.map fun (name, value) => (some name, value)) name = some none := by
  have hnone : (fields.map fun (name, value) => (some name, value)).filter
      (fun m => m.1 == some name) = [] := by
    rw [List.filter_eq_nil_iff]
    intro m hm
    obtain ⟨m', hm', rfl⟩ := List.mem_map.mp hm
    simpa using h m' hm'
  rw [lookup?, hnone]

section Fields

variable (hperm : fields.Perm (givenMembers entries ++ extra))
  (hnodup : (entries.map Prod.fst).Nodup) (hextra : ∀ m ∈ extra, m.1 ∉ entries.map Prod.fst)

include hperm hnodup hextra

/-- **A field is found if it is given**, wherever it stands among the others. -/
theorem lookup?_of_perm {name : String} {value : Option Json} (hmem : (name, value) ∈ entries) :
    lookup? (fields.map fun (name, value) => (some name, value)) name = some value := by
  obtain ⟨before, after, rfl⟩ := List.append_of_mem hmem
  simp only [List.map_append, List.map_cons] at hnodup hextra
  obtain ⟨hbefore, hafter⟩ : name ∉ before.map Prod.fst ∧ name ∉ after.map Prod.fst := by
    have hmiddle := List.perm_middle.nodup_iff.mp hnodup
    rw [List.nodup_cons, List.mem_append, not_or] at hmiddle
    exact hmiddle.1
  have hothers : ∀ m ∈ givenMembers before ++ (givenMembers after ++ extra), m.1 ≠ name := by
    rintro m hm rfl
    rcases List.mem_append.mp hm with hm | hm
    · exact hbefore (mem_givenMembers hm)
    rcases List.mem_append.mp hm with hm | hm
    · exact hafter (mem_givenMembers hm)
    · exact hextra m hm (List.mem_append_right _ List.mem_cons_self)
  cases value with
  | none =>
    refine lookup?_eq_none_of fun m hm => hothers m ?_
    have hsame : givenMembers (before ++ (name, none) :: after) =
        givenMembers before ++ givenMembers after := by
      simp [givenMembers, List.filterMap_append]
    rw [hperm.mem_iff, hsame, List.append_assoc] at hm
    exact hm
  | some j =>
    have hsame : givenMembers (before ++ (name, some j) :: after) =
        givenMembers before ++ (name, j) :: givenMembers after := by
      simp [givenMembers, List.filterMap_append]
    rw [hsame, List.append_assoc, List.cons_append] at hperm
    exact lookup?_eq_some_iff.mpr (Sole.of_perm (hperm.trans List.perm_middle) hothers)

/-- **The fields of an object** are the ones that are given, and the others are missing. -/
theorem fields?_of_perm :
    (record fields).fields? (entries.map Prod.fst) = some (entries.map Prod.snd) := by
  have hnamed : (fields.map fun (name, value) => (some name, value)).all
      (fun m => m.1.isSome) = true := by
    simp
  have hfound : ∀ es ⊆ entries, (es.map Prod.fst).mapM
      (lookup? (fields.map fun (name, value) => (some name, value))) =
        some (es.map Prod.snd) := by
    intro es
    induction es with
    | nil => exact fun _ => rfl
    | cons e es ih =>
      intro hsub
      obtain ⟨he, hes⟩ := List.cons_subset.mp hsub
      rw [List.map_cons, List.mapM_cons, lookup?_of_perm hperm hnodup hextra he, ih hes]
      rfl
  rw [record, fields?, if_pos hnamed]
  exact hfound entries (List.Subset.refl entries)

end Fields

/-- A field that is read back if it is given has its usual value if it is not. -/
theorem orDefault?_map {α β : Type} {read : Json → Option α} {write : β → Json} {value : β → α}
    (h : ∀ b, read (write b) = some (value b)) (usual : α) (o : Option β) :
    orDefault? usual read (o.map write) = some ((o.map value).getD usual) := by
  cases o with
  | none => rfl
  | some b => exact h b

theorem orDefault?_map_self {α : Type} {read : Json → Option α} {write : α → Json}
    (h : ∀ a, read (write a) = some a) (usual : α) (o : Option α) :
    orDefault? usual read (o.map write) = some (o.getD usual) := by
  simpa using orDefault?_map (fun a => (h a : read (write a) = some (id a))) usual o

theorem natural?_word (n : UInt64) : natural? wordLimit (natural n.toNat) = some n.toNat :=
  natural?_natural (Nat.le_pred_of_lt n.toNat_lt_size)

theorem text?_text (s : String) : text? (text s) = some s := rfl

theorem bool?_bool (b : Bool) : bool? (.bool b) = some b := rfl

theorem nullable?_optional (t : Option String) :
    nullable? text? (optional text t) = some t := by
  cases t <;> rfl

end Json

namespace Preferences

/-- **What a settings file gives**: any of the fields. -/
structure Given where
  /-- The address of the server's page. -/
  server : Option String := none
  /-- The credential, or that there is none. -/
  token : Option (Option String) := none
  /-- How often to look whether the connection is down. -/
  reconnectMs : Option UInt64 := none
  /-- The delay before a segment is asked for. -/
  debounceMs : Option UInt64 := none
  /-- The time after which a segment is asked for again. -/
  retryMs : Option UInt64 := none
  /-- The cells of a height map along each axis. -/
  bins : Option UInt64 := none
  /-- Whether to keep an archive. -/
  saveArchive : Option Bool := none

namespace Given

/-- The fields of the file, as far as they are given. -/
def entries (g : Given) : List (String × Option Json) :=
  let word (n : UInt64) : Json := .natural n.toNat
  [("server", g.server.map .text), ("token", g.token.map (.optional .text)),
    ("reconnect_interval_ms", g.reconnectMs.map word), ("debounce_ms", g.debounceMs.map word),
    ("retry_interval_ms", g.retryMs.map word), ("bins", g.bins.map word),
    ("save_archive", g.saveArchive.map .bool)]

/-- What is given, and the usual value for everything else. -/
def preferences (g : Given) : Preferences :=
  let usual : Preferences := {}
  { server := g.server.getD usual.server
    token := g.token.getD usual.token
    reconnectMs := (g.reconnectMs.map UInt64.toNat).getD usual.reconnectMs
    debounceMs := (g.debounceMs.map UInt64.toNat).getD usual.debounceMs
    retryMs := (g.retryMs.map UInt64.toNat).getD usual.retryMs
    bins := (g.bins.map UInt64.toNat).getD usual.bins
    saveArchive := g.saveArchive.getD usual.saveArchive }

end Given

/-- **What came of reading a settings file that gives these fields**: there is no file and it gives
none, or its text is an object with their members among others. -/
inductive FileGives : Except FileFault String → Given → Prop
  /-- There is no file. -/
  | absent : FileGives (.error .notFound) {}
  /-- The file has a text. -/
  | object {g : Given} {fields extra : List (String × Json)} {text : String}
    (htext : Json.IsTextOf (.record fields) text)
    (hfields : fields.Perm (Json.givenMembers g.entries ++ extra))
    (hextra : ∀ m ∈ extra, m.1 ∉ fieldNames) : FileGives (.ok text) g

variable {g : Given}

/-- **An object is read as what it gives.** -/
theorem ofJson?_of_perm {fields extra : List (String × Json)}
    (hfields : fields.Perm (Json.givenMembers g.entries ++ extra))
    (hextra : ∀ m ∈ extra, m.1 ∉ fieldNames) : ofJson? (.record fields) = some g.preferences := by
  have hnodup : (g.entries.map Prod.fst).Nodup := by
    change fieldNames.Nodup
    decide
  have hread : (Json.record fields).fields? fieldNames = some (g.entries.map Prod.snd) :=
    Json.fields?_of_perm hfields hnodup hextra
  -- each field is read by the inverse of what it is written with
  have hword (usual : Nat) (o : Option UInt64) : Json.orDefault? usual
      (Json.natural? Json.wordLimit) (o.map fun n => Json.natural n.toNat) =
        some ((o.map UInt64.toNat).getD usual) :=
    Json.orDefault?_map Json.natural?_word usual o
  have hserver (usual : String) := Json.orDefault?_map_self Json.text?_text usual g.server
  have htoken (usual : Option String) :=
    Json.orDefault?_map_self Json.nullable?_optional usual g.token
  have harchive (usual : Bool) := Json.orDefault?_map_self Json.bool?_bool usual g.saveArchive
  simp only [ofJson?, hread, Given.entries, List.map_cons, List.map_nil, Option.bind_eq_bind,
    Option.bind_some, hserver, htoken, hword, harchive, Given.preferences]
  rfl

/-- **A settings file says what it gives.** -/
theorem ofFile_of_gives {file : Except FileFault String} (h : FileGives file g) (path : String) :
    ofFile path file = .ok g.preferences := by
  cases h with
  | absent => rfl
  | @object _ fields extra text htext hfields hextra =>
    have hread : read? text = some g.preferences := by
      rw [read?, Json.read?_of_isTextOf htext, Option.bind_some, ofJson?_of_perm hfields hextra]
    rw [ofFile, hread]

end Preferences

end Deposition
