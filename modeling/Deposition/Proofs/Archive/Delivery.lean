import Deposition.Proofs.Archive.Truncation

/-!
# Archives that arrive in portions

Whoever reads an archive from a file or a connection is handed its bytes in portions, and nothing of
that is to be seen in what the archive is read as. A reader asks for bytes in three ways, and
`Deposition.Proofs.Bytes.Portions` says for each of them that it sees no more of a source than the
bytes it holds and the fault behind them. It remains to say what is read of bytes, and of any bytes,
since a file may be no archive, or not a whole one. Behind the header, any bytes are whole pieces
and the beginning of one more (`Deposition.Archive.exists_pieces_take`). What is given of the whole
pieces is settled in `Deposition.Proofs.Archive.Pieces`; what is given of the torn one is an error
at most (`Deposition.Archive.Piece.torn`).

The end of the bytes and a fault are told apart only there. The end may come unnoticed, in front of
a piece or in one that is passed over. A fault never does, but it may come too late: a piece whose
header says that it is too short is refused before any of its body is asked for, and after an error
nothing is asked for at all (`Deposition.Archive.ErrorFirst`).

Both go together in `Deposition.Archive.reads_as_delivered`. That reading ends is said there as
well. Each chunk that is passed takes the bytes of a header off the source, so what a reader weighs
(`Deposition.Archive.Reader.weight`) never grows, and it weighs less than the bytes of the archive
when it starts, by the header of the archive.
-/

namespace Deposition

namespace Archive

/-! ### Any bytes are pieces and the beginning of a piece -/

section Layout

/-- The first eight bytes of a chunk are a tag and a number. -/
theorem exists_header {bytes : Bytes} (h : Chunk.headerBytes ≤ bytes.length) :
    ∃ tag following rest, tag.length = 4 ∧ bytes = tag ++ (Word.toBytes following ++ rest) := by
  rw [Chunk.headerBytes] at h
  obtain ⟨following, rest, hrest⟩ := Word.exists_eq_toBytes_append (bytes.drop 4)
    (by rw [List.length_drop]; omega)
  refine ⟨bytes.take 4, following, rest, List.length_take_of_le (by omega), ?_⟩
  rw [← hrest, List.take_append_drop]

/-- **Any bytes are the beginning of a piece, or one whole piece and other bytes.** -/
theorem exists_piece (bytes : Bytes) :
    (∃ (p : Piece) (k : Nat), k < p.bytes.length ∧ bytes = p.bytes.take k) ∨
      ∃ (p : Piece) (rest : Bytes), bytes = p.bytes ++ rest := by
  -- with zeros behind them the bytes begin with a piece, which is longer than they are or not
  have hlong : Chunk.headerBytes ≤ (bytes ++ List.replicate Chunk.headerBytes 0).length := by simp
  obtain ⟨tag, following, rest, htag, hpadded⟩ := exists_header hlong
  let zeros : Bytes := List.replicate following.toNat 0
  have hbody : ((rest ++ zeros).take following.toNat).length = following.toNat := by
    simp [zeros]
  let p : Piece := ⟨tag, (rest ++ zeros).take following.toNat, htag, by
    rw [hbody]
    exact following.toNat_lt⟩
  have hp : p.bytes <+: bytes ++ (List.replicate Chunk.headerBytes 0 ++ zeros) := by
    refine ⟨(rest ++ zeros).drop following.toNat, ?_⟩
    simp only [p, Piece.bytes, hbody, UInt32.ofNat_toNat, List.append_assoc,
      List.take_append_drop]
    rw [← List.append_assoc bytes, hpadded]
    simp only [List.append_assoc]
  have hbytes : bytes <+: bytes ++ (List.replicate Chunk.headerBytes 0 ++ zeros) :=
    List.prefix_append _ _
  by_cases hlt : bytes.length < p.bytes.length
  · have htake := List.prefix_of_prefix_length_le hbytes hp (Nat.le_of_lt hlt)
    exact .inl ⟨p, bytes.length, hlt, List.prefix_iff_eq_take.mp htake⟩
  · obtain ⟨rest, hrest⟩ := List.prefix_of_prefix_length_le hp hbytes (Nat.le_of_not_lt hlt)
    exact .inr ⟨p, rest, hrest.symm⟩

/-- **Any bytes are whole pieces and the beginning of one more.** -/
theorem exists_pieces_take (bytes : Bytes) : ∃ (pieces : List Piece) (p : Piece) (k : Nat),
    k < p.bytes.length ∧ bytes = pieces.flatMap Piece.bytes ++ p.bytes.take k := by
  induction hlength : bytes.length using Nat.strongRecOn generalizing bytes with
  | _ length ih =>
    obtain ⟨p, k, hk, rfl⟩ | ⟨p, rest, rfl⟩ := exists_piece bytes
    · exact ⟨[], p, k, hk, rfl⟩
    · have hpos := p.length_bytes_pos
      rw [List.length_append] at hlength
      obtain ⟨pieces, q, k, hk, rfl⟩ := ih rest.length (by omega) rest rfl
      exact ⟨p :: pieces, q, k, hk, by rw [List.flatMap_cons, List.append_assoc]⟩

end Layout

/-! ### What a file is -/

section Header

variable {decompress : Bytes → Nat → Option Bytes} {source : Source} {bytes rest : Bytes}
  {fault : Option IoError} {k : Nat} {e : IoError}

/-- A file that begins otherwise is no archive. -/
theorem start_of_ne_magic {found : Bytes} (hlength : found.length = magic.length)
    (hne : found ≠ magic) (h : source.Holds (found ++ rest) fault) :
    Reader.startUsing decompress source = .error .badMagic := by
  obtain ⟨behind, htake, -⟩ := h.take
  rw [hlength] at htake
  rw [Reader.startUsing, htake]
  dsimp only
  rw [if_pos hne]

/-- An archive of another version cannot be read. -/
theorem start_of_ne_version {w : UInt32} (hne : w ≠ version)
    (h : source.Holds (magic ++ (Word.toBytes w ++ rest)) fault) :
    Reader.startUsing decompress source = .error (.unsupportedVersion w) := by
  obtain ⟨source₁, htake, h₁⟩ := h.take
  obtain ⟨behind, hword, -⟩ := h₁.word
  rw [Reader.startUsing, htake]
  dsimp only
  rw [if_neg (by simp), hword]
  dsimp only
  rw [if_pos hne]

/-- **Where the bytes that tell it are there the file is known for what it is**: an archive, or
something that is refused, whatever comes behind. -/
theorem header_or_error (hle : headerEnd bytes ≤ k) (hk : k ≤ bytes.length) :
    (∃ rest, bytes.take k = header ++ rest) ∨
      ∃ error, ∀ (source : Source) fault more, source.Holds (bytes.take k ++ more) fault →
        Reader.startUsing decompress source = .error error := by
  have hmagic : magic.length ≤ k := by
    refine Nat.le_trans ?_ hle
    rw [headerEnd]
    split <;> decide
  obtain ⟨j, rfl⟩ := Nat.exists_eq_add_of_le hmagic
  rw [List.take_add]
  rw [headerEnd] at hle
  split at hle
  · next hbegin =>
    rw [header, List.length_append, Word.length_toBytes] at hle
    obtain ⟨w, rest, hrest⟩ :=
      Word.exists_eq_toBytes_append ((bytes.drop magic.length).take j) (by
        rw [List.length_take, List.length_drop]
        omega)
    rw [hbegin, hrest]
    by_cases hversion : w = version
    · exact .inl ⟨rest, by rw [hversion, header, List.append_assoc]⟩
    · refine .inr ⟨.unsupportedVersion w, fun source fault more h => ?_⟩
      rw [List.append_assoc, List.append_assoc] at h
      exact start_of_ne_version hversion h
  · next hbegin =>
    refine .inr ⟨.badMagic, fun source fault more h => ?_⟩
    rw [List.append_assoc] at h
    exact start_of_ne_magic (List.length_take_of_le (by omega)) hbegin h

theorem items_of_start_error {error : ArchiveError}
    (h : Reader.startUsing decompress source = .error error) :
    itemsUsing decompress source = .error error := by
  rw [itemsUsing, h]
  rfl

theorem load_of_start_error {σ : Type} {error : ArchiveError}
    (h : Reader.startUsing decompress source = .error error) :
    (loadUsing decompress source : Except ArchiveError (Trajectory σ)) = .error error := by
  rw [loadUsing, items_of_start_error h]
  rfl

end Header

/-! ### What is given of an archive -/

section Given

variable {decompress : Bytes → Nat → Option Bytes} {source : Source} {bytes rest more : Bytes}
  {fault : Option IoError} {k : Nat} {p : Piece} {pieces : List Piece} {place : Nat}

/-- **The piece is refused by its header**, of which the first `k` bytes hold all: a segment is
expected in it, and it has no room for the length of its contents. -/
def Piece.Refused (p : Piece) (k : Nat) : Prop :=
  Chunk.headerBytes ≤ k ∧ p.isSegment = true ∧ p.body.length < Chunk.lengthBytes

instance (p : Piece) (k : Nat) : Decidable (p.Refused k) := by
  unfold Piece.Refused
  infer_instance

/-- **What a reader gives of a piece** behind whose first `k` bytes the source ends or breaks. -/
def Piece.torn (p : Piece) (k : Nat) : Option IoError → List (Except ArchiveError Segment)
  | none => p.remnant k
  | some e => [.error (.io (if p.Refused k then .chunkTooShort else e))]

theorem throughError_torn (p : Piece) (k : Nat) (fault : Option IoError) :
    throughError (p.torn k fault) = p.torn k fault := by
  cases fault with
  | none => exact throughError_remnant p k
  | some e => rfl

theorem length_torn_le (p : Piece) (k : Nat) (fault : Option IoError) :
    (p.torn k fault).length ≤ 1 := by
  cases fault with
  | none => exact length_remnant_le p k
  | some e => exact Nat.le_refl 1

/-- A fault is met, unless the piece is refused before. -/
theorem Reader.found_fault {e : IoError} (hlt : k < p.bytes.length)
    (h : source.Holds (p.bytes.take k) (some e)) :
    found { source, chunk := place, decompress } =
      .error (.io (if p.Refused k then .chunkTooShort else e)) := by
  rw [found_take hlt h, Option.elim_some, Option.getD_some]
  by_cases hrefused : p.Refused k
  · rw [if_pos hrefused]
    obtain ⟨hk, hp, hshort⟩ := hrefused
    have hzero : k ≠ 0 := Nat.ne_of_gt (Nat.lt_of_lt_of_le (by decide) hk)
    rw [if_neg hzero, if_neg (Nat.not_lt.mpr hk), hp, if_pos hshort]
    rfl
  · rw [if_neg hrefused]
    split_ifs with hzero hheader hp hshort
    · rfl
    · rfl
    · rfl
    · exact absurd ⟨Nat.le_of_not_lt hheader, by simpa using hp, hshort⟩ hrefused
    · rfl

theorem Reader.nth_torn (hlt : k < p.bytes.length) (h : source.Holds (p.bytes.take k) fault)
    (n : Nat) :
    nth { source, chunk := place, decompress } n = (throughError (p.torn k fault))[n]? := by
  rw [throughError_torn]
  cases fault with
  | none => exact nth_cut hlt h n
  | some e => exact nth_of_found_error rfl (found_fault hlt h) n

/-- **What is given of an archive**, however its bytes arrive: what is in its whole pieces, and then
what the reader makes of the one that is torn. -/
theorem read_torn (pieces : List Piece) (hlt : k < p.bytes.length)
    (h : source.Holds (header ++ (pieces.flatMap Piece.bytes ++ p.bytes.take k)) fault) :
    Reads decompress source (throughError (Piece.segments decompress 0 pieces ++ p.torn k fault)) :=
  read_pieces pieces (fun _ hp n => Reader.nth_torn hlt hp n)
    (Nat.le_trans (length_torn_le p k fault) (Nat.le_add_left 1 _)) h

/-- A piece that is refused by its header is refused whatever stands behind it. -/
theorem Reader.found_refused (hr : p.Refused k) (h : source.Holds (p.bytes.take k ++ more) fault) :
    found { source, chunk := place, decompress } = .error (.io .chunkTooShort) := by
  obtain ⟨hk, hp, hshort⟩ := hr
  rw [Piece.take_bytes hk, List.append_assoc, List.append_assoc] at h
  obtain ⟨behind, -, hfound⟩ := found_of_header_segment hp h place
  rw [hfound, Chunk.takeBody_of_lt hshort]

theorem read_refused (pieces : List Piece) (hr : p.Refused k)
    (h : source.Holds (header ++ (pieces.flatMap Piece.bytes ++ (p.bytes.take k ++ more))) fault) :
    itemsUsing decompress source =
      .ok (throughError (Piece.segments decompress 0 pieces ++ [.error (.io .chunkTooShort)])) := by
  have hlast (source : Source) (hp : source.Holds (p.bytes.take k ++ more) fault) (n : Nat) :
      Reader.nth { source, chunk := 0 + pieces.length, decompress } n =
        (throughError [.error (.io .chunkTooShort)])[n]? :=
    Reader.nth_of_found_error rfl (Reader.found_refused hr hp) n
  exact (read_pieces pieces hlast (Nat.le_add_left 1 _) h).items_eq

/-- **The items of the first pieces** come first, whatever stands behind the pieces. -/
theorem exists_items (pieces : List Piece) (rest : Bytes) : ∃ last,
    itemsUsing decompress (.ofBytes (header ++ (pieces.flatMap Piece.bytes ++ rest))) =
      .ok (throughError (Piece.segments decompress 0 pieces ++ last)) := by
  obtain ⟨others, q, j, hj, rfl⟩ := exists_pieces_take rest
  rw [← List.append_assoc (pieces.flatMap Piece.bytes), ← List.flatMap_append]
  have hread : Reads decompress (.ofBytes _) _ :=
    read_torn (pieces ++ others) hj (Source.holds_ofBytes _)
  have hitems := hread.items_eq
  rw [Piece.segments_append, List.append_assoc] at hitems
  exact ⟨_, hitems⟩

end Given

/-! ### How far a reader looks -/

namespace Reader

variable {decompress : Bytes → Nat → Option Bytes} {r : Reader} {source behind : Source}
  {s : Segment} {place place' n : Nat}

/-- The reader after so many items. -/
def after (r : Reader) : Nat → Reader
  | 0 => r
  | n + 1 => r.next.2.after n

/-- **The reader looks at no more than so many chunks**, in all that it is asked for: it has passed
no more, and with what is left of the bound it finds what it finds without. -/
def LooksWithin (r : Reader) (bound : Nat) : Prop :=
  ∀ n, (r.after n).chunk ≤ bound ∧
    scan (r.after n).decompress (bound - (r.after n).chunk) (r.after n).source
      (r.after n).chunk = (r.after n).found

/-- What the chunks that a reader has passed had in their headers, with all that is left to it. -/
def weight (r : Reader) : Nat := Chunk.headerBytes * r.chunk + r.source.size

/-- Each chunk that is passed has a header. -/
theorem weight_le_of_scan {fuel : Nat}
    (h : scan decompress fuel source place = .ok (some (s, behind, place'))) :
    Chunk.headerBytes * place' + behind.size ≤ Chunk.headerBytes * place + source.size := by
  fun_induction scan decompress fuel source place with
  | case1 | case2 | case3 | case4 | case6 | case7 => cases h
  | case5 fuel source place tag following rest hheader htag rest' hskip ih =>
    have hsize := Chunk.size_of_takeHeader? hheader
    have hle := Source.size_le_of_skip hskip
    have hrest := ih h
    rw [Nat.mul_succ] at hrest
    omega
  | case8 fuel source place tag following rest hheader htag body rest' htake segment hdecode =>
    have hsize := Chunk.size_of_takeHeader? hheader
    have hbody := Chunk.size_of_takeBody htake
    obtain ⟨rfl, rfl, rfl⟩ : segment = s ∧ rest' = behind ∧ place + 1 = place' := by
      simpa using h
    rw [Nat.mul_succ]
    omega

theorem weight_next_le (r : Reader) : r.next.2.weight ≤ r.weight := by
  cases hdone : r.done with
  | true => rw [next, if_pos hdone]
  | false =>
    rw [next_of_found hdone]
    split
    · exact Nat.le_refl _
    · exact Nat.le_refl _
    · next hfound => exact weight_le_of_scan hfound

theorem weight_after_le (r : Reader) (n : Nat) : (r.after n).weight ≤ r.weight := by
  induction n generalizing r with
  | zero => exact Nat.le_refl _
  | succ n ih => exact Nat.le_trans (ih _) (weight_next_le r)

/-- What a reader weighs bounds how far it looks. -/
theorem looksWithin_of_weight_lt {bound : Nat} (h : r.weight < Chunk.headerBytes * bound) :
    r.LooksWithin bound := by
  intro n
  have hweight := Nat.lt_of_le_of_lt (weight_after_le r n) h
  rw [weight, Chunk.headerBytes] at hweight
  have hchunk : (r.after n).chunk ≤ bound := by omega
  refine ⟨hchunk, ?_⟩
  exact scan_congr (by rw [Chunk.headerBytes]; omega) (by rw [Chunk.headerBytes]; omega) _

/-- A reader that has just started weighs as much as there is behind the header. -/
theorem weight_of_start (h : startUsing decompress source = .ok r) :
    r.weight + header.length = source.size := by
  rw [startUsing] at h
  split at h
  · cases h
  next found rest htake =>
    split at h
    · cases h
    split at h
    · cases h
    next found' rest' hword =>
      split at h
      · cases h
      obtain rfl := Except.ok.inj h
      have hsize := Source.size_of_take htake
      have hsize' := Source.size_of_word hword
      rw [weight, header, List.length_append, Word.length_toBytes]
      dsimp only
      omega

end Reader

/-! ### However the bytes arrive -/

section Delivered

variable {decompress : Bytes → Nat → Option Bytes} {source : Source} {bytes : Bytes}
  {fault : Option IoError} {k : Nat} {e : IoError} {found : List (Except ArchiveError Segment)}
  {σ : Type}

/-- **What there is to read of such bytes**, if any source holds them. -/
theorem start_error_or_exists_read (bytes : Bytes) (fault : Option IoError) :
    (∃ error, ∀ source : Source, source.Holds bytes fault →
        Reader.startUsing decompress source = .error error) ∨
      ∃ found : List (Except ArchiveError Segment),
        Chunk.headerBytes * found.length ≤ bytes.length ∧
        ∀ source : Source, source.Holds bytes fault →
          Reads decompress source (throughError found) := by
  by_cases hend : bytes.length < headerEnd bytes
  · refine .inl ⟨.io (fault.getD .unexpectedEnd), fun source h => start_of_lt_headerEnd hend ?_⟩
    rwa [List.take_length]
  obtain ⟨rest, hrest⟩ | ⟨error, herror⟩ :=
    header_or_error (Nat.le_of_not_lt hend) (Nat.le_refl bytes.length)
  · rw [List.take_length] at hrest
    subst hrest
    obtain ⟨pieces, p, k, hk, rfl⟩ := exists_pieces_take rest
    refine .inr ⟨Piece.segments decompress 0 pieces ++ p.torn k fault, ?_,
      fun source h => read_torn pieces hk h⟩
    -- the header of the archive makes up for the piece that is torn
    have hpieces : Chunk.headerBytes * pieces.length ≤ (pieces.flatMap Piece.bytes).length :=
      mul_length_le_length_flatMap Piece.headerBytes_le_length pieces
    have hsegments := Piece.length_segments_le decompress 0 pieces
    have htorn := length_torn_le p k fault
    have hheader : header.length = 12 := rfl
    simp only [List.length_append, Chunk.headerBytes] at hpieces ⊢
    omega
  · refine .inl ⟨error, fun source h => herror source fault [] ?_⟩
    rwa [List.take_length, List.append_nil]

/-- **Without a fault it does not matter how the bytes arrive.** -/
theorem reads_whole (h : source.Holds bytes none) :
    (Reader.startUsing decompress source).map Reader.nth =
        (Reader.startUsing decompress (.ofBytes bytes)).map Reader.nth ∧
      itemsUsing decompress source = itemsUsing decompress (.ofBytes bytes) ∧
      (loadUsing decompress source : Except ArchiveError (Trajectory σ)) =
        loadUsing decompress (.ofBytes bytes) := by
  have hwhole := Source.holds_ofBytes bytes
  obtain ⟨error, herror⟩ | ⟨found, -, hread⟩ := start_error_or_exists_read bytes none
  · rw [herror source h, herror _ hwhole, items_of_start_error (herror source h),
      items_of_start_error (herror _ hwhole), load_of_start_error (herror source h),
      load_of_start_error (herror _ hwhole)]
    exact ⟨rfl, rfl, rfl⟩
  · obtain ⟨r, hstart, hnth, hitems⟩ := hread source h
    obtain ⟨r', hstart', hnth', hitems'⟩ := hread _ hwhole
    have hsame : r.nth = r'.nth := funext fun n => (hnth n).trans (hnth' n).symm
    refine ⟨?_, hitems.trans hitems'.symm, ?_⟩
    · rw [hstart, hstart', Except.map, Except.map, hsame]
    · rw [load_of_items hitems, load_of_items hitems']

/-- **Reading ends**, and with the first error. -/
theorem reading_ends {r : Reader} (h : source.Holds bytes none)
    (hstart : Reader.startUsing decompress source = .ok r) :
    r.LooksWithin (bytes.length / Chunk.headerBytes) ∧
      ∃ found : List (Except ArchiveError Segment), (∀ n, r.nth n = found[n]?) ∧
        found.length ≤ bytes.length / Chunk.headerBytes ∧
        ∀ i error, found[i]? = some (.error error) → i + 1 = found.length := by
  constructor
  · have hweight := Reader.weight_of_start hstart
    rw [h.size_eq] at hweight
    refine Reader.looksWithin_of_weight_lt ?_
    have hheader : header.length = 12 := rfl
    have hrest := Nat.div_add_mod bytes.length Chunk.headerBytes
    have hmod := Nat.mod_lt bytes.length (by decide : 0 < Chunk.headerBytes)
    rw [Chunk.headerBytes] at hrest hmod ⊢
    omega
  · obtain ⟨error, herror⟩ | ⟨found, hlength, hread⟩ := start_error_or_exists_read bytes none
    · rw [herror source h] at hstart
      cases hstart
    · obtain ⟨r', hstart', hnth, -⟩ := hread source h
      obtain rfl : r' = r := Except.ok.inj (hstart'.symm.trans hstart)
      refine ⟨_, hnth, ?_, fun i error => eq_length_of_error⟩
      refine Nat.le_trans (length_throughError_le found) ?_
      rw [Nat.le_div_iff_mul_le (by decide), Nat.mul_comm]
      exact hlength

/-- **The bytes end in a piece**: they are an archive of whole pieces and of the first `j` bytes of
another. -/
structure EndsIn (bytes : Bytes) (pieces : List Piece) (p : Piece) (j : Nat) : Prop where
  /-- Of the last piece, something is missing. -/
  lt : j < p.bytes.length
  /-- The rest is there. -/
  bytes_eq : bytes = header ++ (pieces.flatMap Piece.bytes ++ p.bytes.take j)

/-- **An error comes before the fault**: one that is given of the whole pieces, or the one with
which the piece behind them is refused. -/
def ErrorFirst (shown : List (Except ArchiveError Segment)) (p : Piece) (j : Nat) : Prop :=
  p.Refused j ∨ ∃ error, .error error ∈ shown

/-- Where bytes of an archive are missing, they end in a piece. -/
theorem exists_endsIn (rest : Bytes) : ∃ pieces p j, EndsIn (header ++ rest) pieces p j := by
  obtain ⟨pieces, p, j, hlt, rfl⟩ := exists_pieces_take rest
  exact ⟨pieces, p, j, hlt, rfl⟩

/-- **A source that breaks in a piece** gives what the whole archive gives of the pieces before it,
and then the fault, unless an error comes first. -/
theorem reads_until_fault {pieces : List Piece} {p : Piece} {j : Nat}
    (hends : EndsIn (bytes.take k) pieces p j) (h : source.Holds (bytes.take k) (some e))
    (hfound : itemsUsing decompress (.ofBytes bytes) = .ok found)
    {shown : List (Except ArchiveError Segment)}
    (hshown : shown = found.take (pieces.filter Piece.isSegment).length) :
    ∃ given, Reads decompress source given ∧ (∃ error, .error error ∈ given) ∧
      (ErrorFirst shown p j → given = found) ∧
      (¬ ErrorFirst shown p j → given = shown ++ [.error (.io e)]) := by
  have hwhole := Source.holds_ofBytes bytes
  have hbytes : bytes =
      header ++ (pieces.flatMap Piece.bytes ++ (p.bytes.take j ++ bytes.drop k)) := by
    rw [← List.append_assoc (pieces.flatMap Piece.bytes), ← List.append_assoc header,
      ← hends.bytes_eq, List.take_append_drop]
  obtain ⟨last, hlast⟩ := exists_items pieces (p.bytes.take j ++ bytes.drop k)
  rw [← hbytes] at hlast
  obtain rfl := Except.ok.inj (hfound.symm.trans hlast)
  rw [← Piece.length_segments decompress 0, take_throughError_append] at hshown
  subst hshown
  rw [hends.bytes_eq] at h
  rw [ErrorFirst, exists_error_throughError_iff]
  refine ⟨_, read_torn pieces hends.lt h, ?_, ?_, ?_⟩
  · rw [exists_error_throughError_iff]
    exact ⟨_, List.mem_append_right _ List.mem_cons_self⟩
  · rintro (hrefused | hshown)
    · rw [hbytes] at hwhole hlast
      have hrefusal : itemsUsing decompress _ = _ := read_refused pieces hrefused hwhole
      rw [Except.ok.inj (hlast.symm.trans hrefusal), Piece.torn, if_pos hrefused]
    · rw [throughError_append_of_error hshown, throughError_append_of_error hshown]
  · intro hnone
    obtain ⟨hrefused, hshown⟩ := not_or.mp hnone
    have hall := throughError_append_of_ok hshown []
    rw [List.append_nil] at hall
    rw [throughError_append_of_ok hshown, throughError_torn, hall, Piece.torn, if_neg hrefused]
    simp [throughError]

/-- **An archive reads as its bytes do, however they arrive.** In portions of any sizes, with any
interruptions, every reader gives what it gives of the bytes in memory, and so does whoever makes a
trajectory of them; it looks at no more chunks than the bytes have room for headers, gives no more
than one error, which is the last that it gives, and then nothing. If the source breaks after `k`
bytes, the fault is met in the header of the archive if that is not behind them, and what is no
archive is refused as it would be. Otherwise the bytes are whole pieces and the beginning of one
more, and a reader gives what the archive in memory gives of the whole pieces, and then the fault.
An error that comes before it is given in its place: one from the pieces, or the one of a piece
whose header says that it is too short. So there is always an error, and never a trajectory. -/
theorem reads_as_delivered (decompress : Bytes → Nat → Option Bytes) (bytes : Bytes) :
    (∀ source : Source, source.Holds bytes none →
      (Reader.startUsing decompress source).map Reader.nth =
        (Reader.startUsing decompress (.ofBytes bytes)).map Reader.nth ∧
      itemsUsing decompress source = itemsUsing decompress (.ofBytes bytes) ∧
      (loadUsing decompress source : Except ArchiveError (Trajectory σ)) =
        loadUsing decompress (.ofBytes bytes) ∧
      ∀ r, Reader.startUsing decompress source = .ok r →
        r.LooksWithin (bytes.length / Chunk.headerBytes) ∧
        ∃ given : List (Except ArchiveError Segment), (∀ n, r.nth n = given[n]?) ∧
          given.length ≤ bytes.length / Chunk.headerBytes ∧
          ∀ i error, given[i]? = some (.error error) → i + 1 = given.length) ∧
    ∀ (source : Source) (k : Nat) (e : IoError), k ≤ bytes.length →
      source.Holds (bytes.take k) (some e) →
      (∀ t : Trajectory σ, loadUsing decompress source ≠ .ok t) ∧
      (k < headerEnd bytes → Reader.startUsing decompress source = .error (.io e) ∧
        (loadUsing decompress source : Except ArchiveError (Trajectory σ)) = .error (.io e)) ∧
      (headerEnd bytes ≤ k → ∀ error,
        Reader.startUsing decompress (.ofBytes bytes) = .error error →
        Reader.startUsing decompress source = .error error ∧
        (loadUsing decompress source : Except ArchiveError (Trajectory σ)) = .error error) ∧
      (headerEnd bytes ≤ k → ∀ found, itemsUsing decompress (.ofBytes bytes) = .ok found →
        ∃ (pieces : List Piece) (p : Piece) (j : Nat)
          (shown given : List (Except ArchiveError Segment)),
          EndsIn (bytes.take k) pieces p j ∧
          shown = found.take (pieces.filter Piece.isSegment).length ∧
          Reads decompress source given ∧ (∃ error, .error error ∈ given) ∧
          (ErrorFirst shown p j → given = found ∧
            (loadUsing decompress source : Except ArchiveError (Trajectory σ)) =
              loadUsing decompress (.ofBytes bytes)) ∧
          (¬ ErrorFirst shown p j → given = shown ++ [.error (.io e)] ∧
            (loadUsing decompress source : Except ArchiveError (Trajectory σ)) =
              (assemble ({} : Trajectory σ) shown).bind fun _ => .error (.io e))) := by
  refine ⟨fun source h => ?_, fun source k e hk h => ?_⟩
  · obtain ⟨hstart, hitems, hload⟩ := reads_whole h
    exact ⟨hstart, hitems, hload, fun r hr => reading_ends h hr⟩
  by_cases hend : k < headerEnd bytes
  · have hstart : Reader.startUsing decompress source = .error (.io e) :=
      start_of_lt_headerEnd hend h
    have hload :
        (loadUsing decompress source : Except ArchiveError (Trajectory σ)) = .error (.io e) :=
      load_of_start_error hstart
    refine ⟨fun t ht => ?_, fun _ => ⟨hstart, hload⟩, fun hle => ?_, fun hle => ?_⟩
    · rw [hload] at ht
      cases ht
    · exact absurd hend (Nat.not_lt.mpr hle)
    · exact absurd hend (Nat.not_lt.mpr hle)
  have hwhole := Source.holds_ofBytes bytes
  rw [← List.take_append_drop k bytes] at hwhole
  obtain ⟨rest, hrest⟩ | ⟨error, herror⟩ := header_or_error (Nat.le_of_not_lt hend) hk
  · -- an archive: what is given of it ends with an error
    rw [hrest, List.append_assoc] at hwhole
    obtain ⟨behind, hstart, -⟩ := start_of_holds hwhole
    rw [← List.append_assoc, ← hrest, List.take_append_drop] at hstart
    obtain ⟨pieces, p, j, hends⟩ := exists_endsIn rest
    rw [← hrest] at hends
    have hitems : itemsUsing decompress (.ofBytes bytes) =
        .ok (Reader.items { source := behind, decompress }) := by
      rw [itemsUsing, hstart]
      rfl
    obtain ⟨given, hreads, ⟨error, herror⟩, hfirst, hfault⟩ := reads_until_fault hends h hitems rfl
    have hgiven := hreads.items_eq
    refine ⟨load_ne_ok_of_error hgiven herror, fun hlt => absurd hlt hend, fun _ other hother => ?_,
      fun _ found hfound => ?_⟩
    · rw [hstart] at hother
      cases hother
    obtain rfl := Except.ok.inj (hitems.symm.trans hfound)
    refine ⟨pieces, p, j, _, given, hends, rfl, hreads, ⟨error, herror⟩, fun hyes => ?_,
      fun hno => ?_⟩
    · obtain rfl := hfirst hyes
      exact ⟨rfl, by rw [load_of_items hgiven, load_of_items hitems]⟩
    · obtain rfl := hfault hno
      exact ⟨rfl, by rw [load_of_items hgiven, assemble_append]; rfl⟩
  · -- something else: it is refused in the same way
    have hstart' := herror source (some e) [] (by rwa [List.append_nil])
    have hstart := herror _ _ _ hwhole
    rw [List.take_append_drop] at hstart
    have hload :
        (loadUsing decompress source : Except ArchiveError (Trajectory σ)) = .error error :=
      load_of_start_error hstart'
    refine ⟨fun t ht => ?_, fun hlt => absurd hlt hend, fun _ other hother => ?_,
      fun _ found hfound => ?_⟩
    · rw [hload] at ht
      cases ht
    · obtain rfl : error = other := Except.error.inj (hstart.symm.trans hother)
      exact ⟨hstart', hload⟩
    · rw [items_of_start_error hstart] at hfound
      cases hfound

/-- An archive of a segment and a note. -/
def noted : Bytes :=
  header ++ (Chunk.bytes Lz4.compress segmentTag (Segment.encode 1 [7] [[.origin]]) ++
    [0x4e, 0x4f, 0x54, 0x45, 2, 0, 0, 0, 0x68, 0x69])

/-- It arrives in three portions with interruptions, and once more with a fault in place of the last
byte of the note. -/
theorem reads_as_delivered_in_portions :
    ∃ (source broken : Source) (e : IoError),
      source.Holds noted none ∧ broken.Holds (noted.take (noted.length - 1)) (some e) ∧
      items (.ofBytes noted) = .ok [.ok ⟨1, [7], [[.origin]]⟩] ∧
      items source = .ok [.ok ⟨1, [7], [[.origin]]⟩] ∧
      (∃ given, Reads Lz4.decompress broken given ∧
        given = [.ok ⟨1, [7], [[.origin]]⟩, .error (.io e)] ∧
        ∃ error, .error error ∈ given) ∧
      ∀ t : Trajectory Unit, load broken ≠ .ok t := by
  let source : Source :=
    [.data (noted.take 5), .interrupted, .data ((noted.drop 5).take 9), .interrupted, .interrupted,
      .data (noted.drop 14)]
  let broken : Source :=
    [.interrupted, .data (noted.take (noted.length - 1)), .fault (.device "gone")]
  have hsource : source.Holds noted none := ⟨rfl, rfl⟩
  have hbroken : broken.Holds (noted.take (noted.length - 1)) (some (.device "gone")) :=
    ⟨List.append_nil _, rfl⟩
  have hitems : items (.ofBytes noted) = .ok [.ok ⟨1, [7], [[.origin]]⟩] := rfl
  have hread : items broken = .ok [.ok ⟨1, [7], [[.origin]]⟩, .error (.io (.device "gone"))] := rfl
  obtain ⟨hwhole, hbreaks⟩ := reads_as_delivered (σ := Unit) Lz4.decompress noted
  obtain ⟨-, hsame, -⟩ := hwhole source hsource
  obtain ⟨hnever, -, -, hgiven⟩ := hbreaks broken _ _ (Nat.sub_le _ _) hbroken
  obtain ⟨-, -, -, -, given, -, -, hreads, herror, -⟩ := hgiven (by decide) _ hitems
  obtain rfl := Except.ok.inj (hreads.items_eq.symm.trans hread)
  exact ⟨source, broken, _, hsource, hbroken, hitems, hsame.trans hitems,
    ⟨_, hreads, rfl, herror⟩, hnever⟩

end Delivered

end Archive

end Deposition
