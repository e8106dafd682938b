import Deposition.Bytes.Source

/-!
# Portions do not matter

A source hands over its bytes in portions, may be interrupted between them, and may break. Of all
this only two things can be told by reading: which bytes there are before the first fault
(`Deposition.Source.contents`), and which fault it is, if there is one
(`Deposition.Source.fault?`). `Deposition.Source.Holds` says both of a source, and each of the ways
of reading is described by it alone.

* What is asked for is there: it is given, and the source holds what is behind it.
* Some of it is missing: then the fault is met, or else the end of the input, which is an error for
  those who need the bytes and none for those who do not.

Bytes are read off the front in two ways in the proofs below. A portion that is long enough keeps
what is left of it, and one that is too short is used up before the next is asked for; both leave
the same bytes to be read, which is why the induction over the deliveries goes through.
-/

namespace Deposition

namespace Source

/-- The bytes that can be read: those of all portions before the first fault. -/
def contents : Source → Bytes
  | [] => []
  | .data bytes :: rest => bytes ++ contents rest
  | .interrupted :: rest => contents rest
  | .fault _ :: _ => []

/-- The fault that comes after them, if one does. -/
def fault? : Source → Option IoError
  | [] => none
  | .data _ :: rest => fault? rest
  | .interrupted :: rest => fault? rest
  | .fault error :: _ => some error

/-- **The source holds these bytes**, and after them this fault or the end. -/
structure Holds (source : Source) (bytes : Bytes) (fault : Option IoError) : Prop where
  /-- They are all that can be read. -/
  contents_eq : source.contents = bytes
  /-- This is what comes after them. -/
  fault?_eq : source.fault? = fault

theorem holds_ofBytes (bytes : Bytes) : (ofBytes bytes).Holds bytes none :=
  ⟨List.append_nil bytes, rfl⟩

/-- No more can be read than there is. -/
theorem length_contents_le (source : Source) : source.contents.length ≤ source.size := by
  induction source with
  | nil => exact Nat.le_refl _
  | cons delivery rest ih =>
    cases delivery with
    | data bytes =>
      simp only [contents, size, List.length_append]
      omega
    | interrupted => exact ih
    | fault error => exact Nat.zero_le _

/-- Without a fault all of it can be read. -/
theorem Holds.size_eq {source : Source} {bytes : Bytes} (h : source.Holds bytes none) :
    source.size = bytes.length := by
  obtain ⟨rfl, hfault⟩ := h
  induction source with
  | nil => rfl
  | cons delivery rest ih =>
    cases delivery with
    | data bytes => rw [size, contents, List.length_append, ih hfault]
    | interrupted => exact ih hfault
    | fault error => cases hfault

/-! ### A byte -/

/-- What a byte is read from: nothing, a fault, or the first of the contents. -/
theorem byte?_eq (source : Source) :
    match source.contents with
    | [] => source.byte? = source.fault?.elim (.ok none) .error
    | b :: bytes =>
      ∃ rest, source.byte? = .ok (some (b, rest)) ∧ rest.Holds bytes source.fault? := by
  fun_induction byte? source with
  | case1 => rfl
  | case2 rest ih => exact ih
  | case3 b bytes rest => exact ⟨_, rfl, rfl, rfl⟩
  | case4 rest ih => exact ih
  | case5 error rest => rfl

theorem Holds.byte?_nil {source : Source} {fault : Option IoError} (h : source.Holds [] fault) :
    source.byte? = fault.elim (.ok none) .error := by
  have hbyte := byte?_eq source
  rwa [h.contents_eq, h.fault?_eq] at hbyte

theorem Holds.byte?_cons {source : Source} {b : UInt8} {bytes : Bytes} {fault : Option IoError}
    (h : source.Holds (b :: bytes) fault) :
    ∃ rest, source.byte? = .ok (some (b, rest)) ∧ rest.Holds bytes fault := by
  have hbyte := byte?_eq source
  rwa [h.contents_eq, h.fault?_eq] at hbyte

/-! ### So many bytes -/

section Count

variable {source : Source} {bytes rest : Bytes} {fault : Option IoError} {count : Nat}

/-- **Bytes that are there are given**, whatever portions they come in. -/
theorem Holds.take (h : source.Holds (bytes ++ rest) fault) :
    ∃ behind, source.take bytes.length = .ok (bytes, behind) ∧ behind.Holds rest fault := by
  induction source generalizing bytes with
  | nil =>
    obtain ⟨rfl, rfl⟩ := List.append_eq_nil_iff.mp h.contents_eq.symm
    exact ⟨[], rfl, h⟩
  | cons delivery more ih =>
    cases delivery with
    | data portion =>
      have hcontents : portion ++ contents more = bytes ++ rest := h.contents_eq
      rw [Source.take]
      split
      · next hle =>
        obtain ⟨kept, rfl⟩ := List.prefix_of_prefix_length_le ⟨rest, rfl⟩ ⟨_, hcontents⟩ hle
        refine ⟨.data kept :: more, by simp, ?_, h.fault?_eq⟩
        exact List.append_cancel_left (by rw [← hcontents]; exact (List.append_assoc ..).symm)
      · next hlt =>
        -- the portion is used up, and the rest of the bytes is in the portions behind it
        obtain ⟨missing, rfl⟩ := List.prefix_of_prefix_length_le ⟨_, hcontents⟩ ⟨rest, rfl⟩
          (Nat.le_of_not_le hlt)
        rw [List.append_assoc] at hcontents
        obtain ⟨behind, htake, hbehind⟩ := ih ⟨List.append_cancel_left hcontents, h.fault?_eq⟩
        refine ⟨behind, ?_, hbehind⟩
        rw [List.length_append, Nat.add_sub_cancel_left, htake]
        rfl
    | interrupted =>
      rw [Source.take]
      split
      · next hzero =>
        obtain rfl := List.length_eq_zero_iff.mp hzero
        exact ⟨_, rfl, h⟩
      · exact ih ⟨h.contents_eq, h.fault?_eq⟩
    | fault error =>
      obtain ⟨rfl, rfl⟩ := List.append_eq_nil_iff.mp h.contents_eq.symm
      exact ⟨_, rfl, h⟩

/-- **Where bytes are missing** there is the fault, or else the end. -/
theorem Holds.take_of_lt (h : source.Holds bytes fault) (hlt : bytes.length < count) :
    source.take count = .error (fault.getD .unexpectedEnd) := by
  obtain ⟨rfl, rfl⟩ := h
  fun_induction Source.take count source with
  | case1 => simp at hlt
  | case2 => rfl
  | case3 count portion more hle =>
    simp only [contents, List.length_append] at hlt
    omega
  | case4 count portion more hlt' ih =>
    simp only [contents, List.length_append] at hlt
    rw [ih (by omega)]
    rfl
  | case5 => simp at hlt
  | case6 more count hne ih => exact ih hlt
  | case7 => simp at hlt
  | case8 => rfl

theorem skip_of_take {behind : Source} (h : source.take count = .ok (bytes, behind)) :
    source.skip count = .ok behind := by
  fun_induction Source.take count source generalizing bytes with
  | case1 | case2 => simp_all [Source.skip]
  | case3 count portion more hle => simp_all [Source.skip]
  | case4 count portion more hlt ih =>
    rw [Source.skip, if_neg hlt]
    cases hmore : Source.take (count - portion.length) more with
    | error error => simp [hmore, Except.map] at h
    | ok taken =>
      obtain ⟨missing, behind'⟩ := taken
      simp only [hmore, Except.map, Except.ok.injEq, Prod.mk.injEq] at h
      obtain ⟨-, rfl⟩ := h
      exact ih hmore
  | case5 | case7 | case8 => simp_all [Source.skip]
  | case6 more count hne ih => rw [Source.skip, if_neg hne, ih h]

/-- **Bytes that nobody wants are passed over**, if they are there. -/
theorem Holds.skip (h : source.Holds (bytes ++ rest) fault) :
    ∃ behind, source.skip bytes.length = .ok behind ∧ behind.Holds rest fault := by
  obtain ⟨behind, htake, hbehind⟩ := h.take
  exact ⟨behind, skip_of_take htake, hbehind⟩

/-- Where they are missing, the end does not matter, but a fault does. -/
theorem Holds.skip_of_lt (h : source.Holds bytes fault) (hlt : bytes.length < count) :
    source.skip count = fault.elim (.ok []) .error := by
  obtain ⟨rfl, rfl⟩ := h
  fun_induction Source.skip count source with
  | case1 => rfl
  | case2 count portion more hle =>
    simp only [contents, List.length_append] at hlt
    omega
  | case3 count portion more hlt' ih =>
    simp only [contents, List.length_append] at hlt
    exact ih (by omega)
  | case4 => simp at hlt
  | case5 count more hne ih => exact ih hlt
  | case6 => simp at hlt
  | case7 => rfl

theorem Holds.word {w : UInt32} (h : source.Holds (Word.toBytes w ++ rest) fault) :
    ∃ behind, source.word = .ok (w, behind) ∧ behind.Holds rest fault := by
  obtain ⟨behind, htake, hbehind⟩ := h.take
  have hword : Word.take? (Word.toBytes w) = some (w, []) := by
    simpa using Word.take?_toBytes_append w []
  rw [Word.length_toBytes] at htake
  refine ⟨behind, ?_, hbehind⟩
  simp only [Source.word, htake, bind, Except.bind, hword]
  rfl

theorem Holds.word_of_lt (h : source.Holds bytes fault) (hlt : bytes.length < 4) :
    source.word = .error (fault.getD .unexpectedEnd) := by
  rw [Source.word, h.take_of_lt hlt]
  rfl

end Count

end Source

end Deposition
