import Deposition.Proofs.Archive.Pieces
import Deposition.Proofs.Bytes.Room

/-!
# What the lengths in a chunk say

A chunk has two lengths in front of its block: the number of bytes that follow, and the length of
the contents. Neither is read for its own sake. The first says where the next chunk begins, and the
second how much room to decompress into, so a length that is wrong shows only in what comes of that.

* **The number of bytes that follow** counts four bytes more than the block has, and stops at the
  greatest word. So there are four lengths of a block, the last ones that are words, for which a
  chunk is written although the number is too small
  (`Deposition.Chunk.toNat_followingField_eq_iff`); such a chunk does not read back, and all others
  do (`Deposition.Chunk.readsBack_iff`).
* **The length of the contents** is a bound to the reader and not more. One that is too small is
  noticed, because the contents do not fit; one that is too large is not, and the contents are found
  as if it were right (`Deposition.Chunk.takeBody_of_length`). Behind a number of bytes that is too
  small the same is true of what is in the front of the block, if there is anything in it.

Both are stated for any way to compress and to decompress. For the first, this block can be
decompressed into a room of the right size; for the second, the room is a bound to what is in a
block (`Deposition.Chunk.Bounds`), as it is for the blocks of `Deposition.Lz4`.
-/

namespace Deposition

namespace Chunk

variable {compress : Bytes → Bytes} {decompress : Bytes → Nat → Option Bytes}
  {tag payload block : Bytes}

/-- The number of bytes that follow, as it is written in front of a block. -/
def followingField (block : Bytes) : UInt32 :=
  UInt32.ofNat (min (lengthBytes + block.length) (wordCount - 1))

/-- The bytes of a chunk that is written, whether its lengths are right or not. -/
def written (tag payload block : Bytes) : Bytes :=
  tag ++ (Word.toBytes (followingField block) ++
    (Word.toBytes (UInt32.ofNat payload.length) ++ block))

theorem toNat_followingField (block : Bytes) :
    (followingField block).toNat = min (lengthBytes + block.length) (wordCount - 1) := by
  have hword : min (lengthBytes + block.length) (wordCount - 1) < wordCount := by
    have hpos : 0 < wordCount := by decide
    omega
  exact UInt32.toNat_ofNat_of_lt' hword

/-- **The number of bytes that follow is right if it is a word.** -/
theorem toNat_followingField_eq_iff :
    (followingField block).toNat = lengthBytes + block.length ↔
      lengthBytes + block.length < wordCount := by
  have hword : 0 < wordCount := by decide
  rw [toNat_followingField]
  omega

/-- What is refused, and what is written otherwise. -/
theorem encodeUsing_cases (compress : Bytes → Bytes) (tag payload : Bytes) :
    (wordCount ≤ payload.length ∨ wordCount ≤ (compress payload).length) ∧
        encodeUsing compress tag payload = .error .chunkTooLarge ∨
      (payload.length < wordCount ∧ (compress payload).length < wordCount) ∧
        encodeUsing compress tag payload = .ok (written tag payload (compress payload)) := by
  rw [encodeUsing, encodeWith]
  split
  · next h => exact .inl ⟨h, rfl⟩
  · next h =>
    refine .inr ⟨by omega, ?_⟩
    simp only [written, followingField, List.append_assoc]

/-- What is not refused is written. -/
theorem encodeUsing_eq_written {tag payload : Bytes} (hpayload : payload.length < wordCount)
    (hblock : (compress payload).length < wordCount) :
    encodeUsing compress tag payload = .ok (written tag payload (compress payload)) := by
  obtain ⟨hlong, -⟩ | ⟨-, hwritten⟩ := encodeUsing_cases compress tag payload
  · omega
  · exact hwritten

/-! ### The number of bytes that follow -/

/-- **A chunk that reads back**: whatever stands behind it and in whatever portions it comes, its
tag and its contents are found, and just the chunk has been read. -/
def ReadsBack (decompress : Bytes → Nat → Option Bytes) (tag payload chunk : Bytes) : Prop :=
  ∀ (source : Source) (rest : Bytes) (fault : Option IoError), source.Holds (chunk ++ rest) fault →
    ∃ following behind after, takeHeader? source = .ok (some ((tag, following), behind)) ∧
      takeBodyUsing decompress following.toNat behind = .ok (payload, after) ∧
      after.Holds rest fault

/-- **What is written reads back exactly if the number of bytes that follow is right.** -/
theorem readsBack_iff (htag : tag.length = 4) (hpayload : payload.length < wordCount)
    (hlz : decompress block payload.length = some payload) :
    ReadsBack decompress tag payload (written tag payload block) ↔
      lengthBytes + block.length < wordCount := by
  have hlength : (Word.toBytes (UInt32.ofNat payload.length) ++ block).length =
      lengthBytes + block.length := by
    rw [List.length_append, Word.length_toBytes, lengthBytes]
  constructor
  · intro h
    have hholds := Source.holds_ofBytes (written tag payload block)
    obtain ⟨following, behind, after, hheader, hbody, hafter⟩ :=
      h _ [] none (by rwa [List.append_nil])
    obtain ⟨behind', hheader', hbehind⟩ := takeHeader?_of_holds htag hholds
    obtain ⟨rfl, rfl⟩ : following = followingField block ∧ behind = behind' := by
      simpa using hheader.symm.trans hheader'
    -- all that follows has been taken, so it is as many bytes as the number says
    have hsize := size_of_takeBody hbody
    rw [hbehind.size_eq, hlength, hafter.size_eq] at hsize
    exact toNat_followingField_eq_iff.mp (by simpa using hsize.symm)
  · intro hcounted source rest fault h
    rw [written, List.append_assoc, List.append_assoc] at h
    obtain ⟨behind, hheader, hbehind⟩ := takeHeader?_of_holds htag h
    obtain ⟨after, hafter, hbody⟩ := takeBody_of_holds hbehind
    refine ⟨_, behind, after, hheader, ?_, hafter⟩
    rw [toNat_followingField_eq_iff.mpr hcounted, ← hlength, hbody,
      UInt32.toNat_ofNat_of_lt' hpayload, hlz]

/-- **A chunk is refused, or it reads back exactly if its number of bytes that follow is a word.**
Contents are refused, and nothing is written, if they or their block are longer than any word says.
Otherwise a chunk is written. It says how many bytes follow, and reads back as what it was written
for, if and only if that number, which is four more than the length of the block, is a word too. -/
theorem refused_or_reads_back_iff (htag : tag.length = 4)
    (hlz : decompress (compress payload) payload.length = some payload) :
    ((wordCount ≤ payload.length ∨ wordCount ≤ (compress payload).length) ∧
        encodeUsing compress tag payload = .error .chunkTooLarge) ∨
      ∃ following body,
        encodeUsing compress tag payload = .ok (tag ++ (Word.toBytes following ++ body)) ∧
        (following.toNat = body.length ↔ lengthBytes + (compress payload).length < wordCount) ∧
        (ReadsBack decompress tag payload (tag ++ (Word.toBytes following ++ body)) ↔
          lengthBytes + (compress payload).length < wordCount) := by
  obtain hrefused | ⟨⟨hpayload, -⟩, hwritten⟩ := encodeUsing_cases compress tag payload
  · exact .inl hrefused
  · refine .inr ⟨_, _, hwritten, ?_, readsBack_iff htag hpayload hlz⟩
    rw [List.length_append, Word.length_toBytes]
    exact toNat_followingField_eq_iff

/-- Three bytes are written, and they read back. -/
theorem refused_or_reads_back_of_three :
    ∃ following body,
      encodeUsing Lz4.compress [0x54, 0x45, 0x53, 0x54] [1, 2, 3] =
        .ok ([0x54, 0x45, 0x53, 0x54] ++ (Word.toBytes following ++ body)) ∧
      following.toNat = body.length ∧
      ReadsBack Lz4.decompress [0x54, 0x45, 0x53, 0x54] [1, 2, 3]
        ([0x54, 0x45, 0x53, 0x54] ++ (Word.toBytes following ++ body)) := by
  have hcounted : lengthBytes + (Lz4.compress [1, 2, 3]).length < wordCount := by decide
  have hlz := Lz4.decompress_compress (Nat.le_refl [1, 2, 3].length)
  obtain ⟨h, -⟩ | ⟨following, body, hwritten, hfollowing, hreads⟩ :=
    @refused_or_reads_back_iff Lz4.compress Lz4.decompress [0x54, 0x45, 0x53, 0x54] [1, 2, 3] rfl
      hlz
  · exact absurd h (by decide)
  · exact ⟨following, body, hwritten, hfollowing.mpr hcounted, hreads.mpr hcounted⟩

/-- Where the number stops at the greatest word, the end of the block is not read. -/
theorem takeBody_of_uncounted {source : Source} {rest : Bytes} {fault : Option IoError} {w : UInt32}
    (hlong : wordCount ≤ lengthBytes + block.length)
    (h : source.Holds (Word.toBytes w ++ block ++ rest) fault) :
    ∃ behind, takeBodyUsing decompress (followingField block).toNat source =
      match decompress (block.take (wordCount - 1 - lengthBytes)) w.toNat with
      | some contents => .ok (contents, behind)
      | none => .error .badCompression := by
  have hword : lengthBytes ≤ wordCount - 1 := by decide
  rw [← List.take_append_drop (wordCount - 1 - lengthBytes) block, ← List.append_assoc,
    List.append_assoc _ _ rest] at h
  obtain ⟨behind, -, hbody⟩ := takeBody_of_holds h
  refine ⟨behind, Eq.trans ?_ hbody⟩
  congr 1
  rw [toNat_followingField, List.length_append, Word.length_toBytes, List.length_take]
  simp only [lengthBytes] at *
  omega

/-- **The front of a block of literals is not one**: where the number stops at the greatest word,
literals are missing. -/
theorem decompress_uncounted (hlong : wordCount ≤ lengthBytes + (Lz4.compress payload).length)
    (hword : (Lz4.compress payload).length < wordCount) (room : Nat) :
    Lz4.decompress ((Lz4.compress payload).take (wordCount - 1 - lengthBytes)) room = none := by
  have hcount : wordCount = 4294967296 := rfl
  have hbytes : lengthBytes = 4 := rfl
  have hmany : 15 ≤ payload.length := by
    by_contra hfew
    rw [Lz4.compress, if_pos (by omega), List.length_cons] at hlong
    omega
  have hblock := Lz4.length_compress hmany
  obtain ⟨kept, hkept⟩ : ∃ kept, wordCount - 1 - lengthBytes =
      (Lz4.compress payload).length - payload.length + kept :=
    Nat.exists_eq_add_of_le (by omega)
  rw [hkept]
  exact Lz4.decompress_take_compress hmany (by omega) room

/-- **So many bytes have a block**, of literals alone, whose length is a word, but not with the four
bytes in front of it. -/
theorem following_literals (h : payload.length = 4278190075) :
    lengthBytes + (Lz4.compress payload).length = wordCount := by
  rw [Lz4.length_compress (by omega), h]
  rfl

/-- So many zeros that their block, of literals alone, is as long as a word says with four less. The
chunk is written, with a number of bytes that follow that is one too small, and its contents cannot
be read. -/
theorem unreadable_of_zeros :
    ∃ payload following body, payload = List.replicate 4278190075 (0 : UInt8) ∧
      Lz4.decompress (Lz4.compress payload) payload.length = some payload ∧
      encodeUsing Lz4.compress [0x54, 0x45, 0x53, 0x54] payload =
        .ok ([0x54, 0x45, 0x53, 0x54] ++ (Word.toBytes following ++ body)) ∧
      following.toNat + 1 = body.length ∧
      takeBody following.toNat (.ofBytes body) = .error .badCompression ∧
      ¬ ReadsBack Lz4.decompress [0x54, 0x45, 0x53, 0x54] payload
        ([0x54, 0x45, 0x53, 0x54] ++ (Word.toBytes following ++ body)) := by
  obtain ⟨payload, hpayload⟩ : ∃ payload, payload = List.replicate 4278190075 (0 : UInt8) :=
    ⟨_, rfl⟩
  have hlength : payload.length = 4278190075 := by rw [hpayload, List.length_replicate]
  have hfollowing := following_literals hlength
  have huncounted := Nat.le_of_eq hfollowing.symm
  have hword : wordCount = 4294967296 := rfl
  have hbytes : lengthBytes = 4 := rfl
  have hlz : Lz4.decompress (Lz4.compress payload) payload.length = some payload :=
    Lz4.decompress_compress (Nat.le_refl _)
  have hwritten : encodeUsing Lz4.compress [0x54, 0x45, 0x53, 0x54] payload = _ :=
    encodeUsing_eq_written (by omega) (by omega)
  refine ⟨payload, _, _, hpayload, hlz, hwritten, ?_, ?_, ?_⟩
  · rw [toNat_followingField, List.length_append, Word.length_toBytes]
    omega
  · have hholds := Source.holds_ofBytes
      (Word.toBytes (UInt32.ofNat payload.length) ++ Lz4.compress payload)
    rw [← List.append_nil (_ ++ Lz4.compress payload)] at hholds
    obtain ⟨behind, hbody⟩ := takeBody_of_uncounted huncounted hholds
    rw [List.append_nil] at hbody
    rw [takeBody, hbody, decompress_uncounted huncounted (by omega)]
  · intro hreads
    have hcounted := (readsBack_iff rfl (by omega) hlz).mp hreads
    omega

/-! ### The length of the contents -/

/-- **The room is a bound**: what a block holds is given if it fits, and otherwise nothing is. -/
def Bounds (decompress : Bytes → Nat → Option Bytes) (contents? : Bytes → Option Bytes) : Prop :=
  ∀ block room,
    decompress block room = (contents? block).filter fun contents => contents.length ≤ room

theorem bounds_lz4 : Bounds Lz4.decompress Lz4.contents? := Lz4.decompress_eq_filter

section Bounds

variable {contents? : Bytes → Option Bytes}

/-- Nothing is given exactly if what the block holds, if it holds anything, does not fit. -/
theorem Bounds.eq_none_iff (h : Bounds decompress contents?) {room : Nat} :
    decompress block room = none ↔ ∀ contents, contents? block = some contents →
      room < contents.length := by
  rw [h, Option.filter_eq_none_iff]
  simp

/-- **Another room gives the same or nothing**: the same if it fits, and nothing if it does not. -/
theorem Bounds.eq_ite (h : Bounds decompress contents?) {room : Nat}
    (hlz : decompress block room = some payload) (room' : Nat) :
    decompress block room' = if payload.length ≤ room' then some payload else none := by
  rw [h, Option.filter_eq_some_iff] at hlz
  rw [h, hlz.1]
  simp [Option.filter]

/-- **A length that is too small is noticed, and any other is taken**: the contents are found, and
what stands behind the chunk is left, exactly if the length in front of the block is not below that
of the contents. -/
theorem takeBody_of_length {source : Source} {rest : Bytes} {fault : Option IoError} (w : UInt32)
    (hroom : Bounds decompress contents?) (hlz : decompress block payload.length = some payload)
    (h : source.Holds (Word.toBytes w ++ block ++ rest) fault) :
    ∃ behind, behind.Holds rest fault ∧
      takeBodyUsing decompress (lengthBytes + block.length) source =
        if w.toNat < payload.length then .error .badCompression else .ok (payload, behind) := by
  have hlength : (Word.toBytes w ++ block).length = lengthBytes + block.length := by
    rw [List.length_append, Word.length_toBytes, lengthBytes]
  obtain ⟨behind, hbehind, hbody⟩ := takeBody_of_holds h
  refine ⟨behind, hbehind, ?_⟩
  rw [← hlength, hbody, hroom.eq_ite hlz]
  by_cases hsmall : w.toNat < payload.length
  · rw [if_neg (Nat.not_le.mpr hsmall), if_pos hsmall]
  · rw [if_pos (Nat.not_lt.mp hsmall), if_neg hsmall]

/-- A chunk with another length of its contents. -/
def relabel (chunk : Bytes) (w : UInt32) : Bytes :=
  chunk.take headerBytes ++ (Word.toBytes w ++ chunk.drop (headerBytes + lengthBytes))

theorem relabel_written (htag : tag.length = 4) (w : UInt32) :
    relabel (written tag payload block) w =
      tag ++ (Word.toBytes (followingField block) ++ (Word.toBytes w ++ block)) := by
  have hheader : (tag ++ Word.toBytes (followingField block)).length = headerBytes := by
    rw [List.length_append, htag, Word.length_toBytes, headerBytes]
  have hlength : (Word.toBytes (UInt32.ofNat payload.length)).length = lengthBytes := rfl
  rw [relabel, written, ← List.append_assoc tag, ← hheader, List.take_left,
    List.drop_length_add_append, ← hlength, List.drop_left, List.append_assoc]

/-- **A wrong length of the contents is noticed exactly if it is too small.** Contents are written
as a chunk, and the length of the contents is replaced by any word. If the number of bytes that
follow is right, then the body of the chunk is refused exactly if the word is below the length of
the contents; otherwise the contents are given as they were, so that what is given can be shorter
than what the chunk says. If that number is too small, the end of the block is not read, and the
body is refused exactly if the word is below the length of whatever is in the rest of the block. -/
theorem wrong_length_noticed_iff (htag : tag.length = 4) (hroom : Bounds decompress contents?)
    (hlz : decompress (compress payload) payload.length = some payload) {chunk : Bytes}
    (hwritten : encodeUsing compress tag payload = .ok chunk) (w : UInt32) {source : Source}
    {rest : Bytes} {fault : Option IoError} (h : source.Holds (relabel chunk w ++ rest) fault) :
    ∃ following behind, takeHeader? source = .ok (some ((tag, following), behind)) ∧
      (lengthBytes + (compress payload).length < wordCount →
        ((∃ e, takeBodyUsing decompress following.toNat behind = .error e) ↔
          w.toNat < payload.length) ∧
        (payload.length ≤ w.toNat → ∃ after,
          takeBodyUsing decompress following.toNat behind = .ok (payload, after) ∧
            after.Holds rest fault)) ∧
      (wordCount ≤ lengthBytes + (compress payload).length →
        ((∃ e, takeBodyUsing decompress following.toNat behind = .error e) ↔
          ∀ contents, contents? ((compress payload).take (wordCount - 1 - lengthBytes)) =
            some contents → w.toNat < contents.length)) := by
  obtain ⟨-, hchunk⟩ | ⟨-, hchunk⟩ := encodeUsing_cases compress tag payload
  · rw [hchunk] at hwritten
    cases hwritten
  obtain rfl : written tag payload (compress payload) = chunk :=
    Except.ok.inj (hchunk.symm.trans hwritten)
  rw [relabel_written htag, List.append_assoc, List.append_assoc] at h
  obtain ⟨behind, hheader, hbehind⟩ := takeHeader?_of_holds htag h
  refine ⟨_, behind, hheader, fun hcounted => ?_, fun huncounted => ?_⟩
  · obtain ⟨after, hafter, hbody⟩ := takeBody_of_length w hroom hlz hbehind
    rw [toNat_followingField_eq_iff.mpr hcounted, hbody]
    by_cases hsmall : w.toNat < payload.length
    · rw [if_pos hsmall]
      exact ⟨iff_of_true ⟨_, rfl⟩ hsmall, fun hlarge => absurd hsmall (Nat.not_lt.mpr hlarge)⟩
    · rw [if_neg hsmall]
      exact ⟨iff_of_false (fun ⟨_, he⟩ => by cases he) hsmall, fun _ => ⟨after, rfl, hafter⟩⟩
  · obtain ⟨after, hbody⟩ := takeBody_of_uncounted huncounted hbehind
    rw [hbody, ← hroom.eq_none_iff]
    cases decompress ((compress payload).take (wordCount - 1 - lengthBytes)) w.toNat <;> simp

/-- Three bytes that are said to be two are refused. -/
theorem wrong_length_noticed_of_two :
    ∃ chunk following behind e,
      encodeUsing Lz4.compress [0x54, 0x45, 0x53, 0x54] [1, 2, 3] = .ok chunk ∧
      takeHeader? (.ofBytes (relabel chunk 2)) =
        .ok (some (([0x54, 0x45, 0x53, 0x54], following), behind)) ∧
      takeBody following.toNat behind = .error e := by
  have hwritten : encodeUsing Lz4.compress [0x54, 0x45, 0x53, 0x54] [1, 2, 3] =
      .ok [0x54, 0x45, 0x53, 0x54, 8, 0, 0, 0, 3, 0, 0, 0, 0x30, 1, 2, 3] := rfl
  have hlz := Lz4.decompress_compress (Nat.le_refl [1, 2, 3].length)
  have hholds := Source.holds_ofBytes
    (relabel [0x54, 0x45, 0x53, 0x54, 8, 0, 0, 0, 3, 0, 0, 0, 0x30, 1, 2, 3] 2)
  rw [← List.append_nil (relabel _ _)] at hholds
  obtain ⟨following, behind, hheader, hnoticed, -⟩ :=
    wrong_length_noticed_iff rfl bounds_lz4 hlz hwritten 2 hholds
  obtain ⟨e, he⟩ := (hnoticed (by decide)).1.mpr (by decide)
  exact ⟨_, following, behind, e, hwritten, hheader, he⟩

/-- Three bytes that are said to be nine are given as three. -/
theorem wrong_length_unnoticed_of_nine :
    ∃ chunk, encodeUsing Lz4.compress [0x54, 0x45, 0x53, 0x54] [1, 2, 3] = .ok chunk ∧
      ∃ behind after, takeHeader? (.ofBytes (relabel chunk 9)) =
          .ok (some (([0x54, 0x45, 0x53, 0x54], 8), behind)) ∧
        takeBody 8 behind = .ok ([1, 2, 3], after) :=
  ⟨_, rfl, _, _, rfl, rfl⟩

end Bounds

end Chunk

end Deposition
