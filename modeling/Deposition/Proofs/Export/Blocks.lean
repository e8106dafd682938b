import Deposition.Export.Xyz
import Deposition.Proofs.Configuration.Numbers
import Deposition.Proofs.Segment.Format

/-!
# The blocks of an XYZ text

The text for a frame is a block of lines: how many particles there are, which frame this is and
which segment it came with, and one line for each particle. A line has no line break in it, so the
text of several blocks can be taken apart again line by line, and it is enough to say which lines
there are (`Deposition.Xyz.IsBlock`).

The frames of a job come in segments, and the blocks of a segment go on counting where those of the
segment before it have stopped. Taken together they are numbered as the frames that the segments
carry, whichever way these are distributed (`Deposition.Xyz.numbered_pieces`).
-/

namespace Deposition

namespace Xyz

/-! ### Lines -/

/-- The text of some lines, each of which is ended. -/
def ended (lines : List String) : String := String.join (lines.map (· ++ "\n"))

theorem ended_cons (line : String) (lines : List String) :
    ended (line :: lines) = line ++ "\n" ++ ended lines := by
  rw [ended, List.map_cons, String.join_cons]
  rfl

theorem ended_append (lines more : List String) :
    ended (lines ++ more) = ended lines ++ ended more := by
  rw [ended, List.map_append, String.join_append]
  rfl

/-- The line of one particle. -/
def atomLine (species : UInt8) (p : Position) : String :=
  Species.symbol species ++ " " ++ (p.x.mul .ten).fixedText 4 ++ " " ++
    (p.y.mul .ten).fixedText 4 ++ " " ++ (p.z.mul .ten).fixedText 4

/-- The lines of one frame. -/
def blockLines (index : Nat) (id : UInt32) (species : Bytes) (frame : Frame) : List String :=
  toString species.length :: ("frame " ++ toString index ++ " segment " ++ toString id.toNat) ::
    (species.zip frame).map fun (s, p) => atomLine s p

theorem block_eq (index : Nat) (id : UInt32) (species : Bytes) (frame : Frame) :
    block index id species frame = ended (blockLines index id species frame) := by
  have hatoms : (species.zip frame).map (fun (s, p) => particleLine s p) =
      ((species.zip frame).map fun (s, p) => atomLine s p).map (· ++ "\n") := by
    rw [List.map_map]
    rfl
  rw [block, hatoms, blockLines, ended_cons, ended_cons, ended]
  simp only [String.append_assoc]
  rfl

/-! ### A line is one line -/

/-- There is no line break in a text. -/
def OneLine (s : String) : Prop := '\n' ∉ s.toList

theorem OneLine.append {s t : String} (hs : OneLine s) (ht : OneLine t) : OneLine (s ++ t) := by
  rw [OneLine, String.toList_append, List.mem_append, not_or]
  exact ⟨hs, ht⟩

theorem oneLine_toString (n : Nat) : OneLine (toString n) :=
  (Layout.digits_toString n).notMem rfl

theorem oneLine_symbol (species : UInt8) : OneLine (Species.symbol species) := by
  have hsymbols : ∀ s ∈ Species.symbols.toList, '\n' ∉ s.toList := by decide +kernel
  rw [Species.symbol, Array.getD_eq_getD_getElem?, ← Array.getElem?_toList]
  cases hsymbol : Species.symbols.toList[species.toNat]? with
  | none =>
    change '\n' ∉ "X".toList
    decide
  | some s => exact hsymbols s (List.mem_of_getElem? hsymbol)

theorem oneLine_fixedText (places : Nat) (x : Single) : OneLine (x.fixedText places) := by
  intro hmem
  rcases (Layout.signed_fixed places x.value).alphanum hmem with h | h | h
  · revert h
    decide
  · revert h
    decide
  · revert h
    decide

theorem oneLine_space : OneLine " " := by
  unfold OneLine
  decide

theorem oneLine_atomLine (species : UInt8) (p : Position) : OneLine (atomLine species p) := by
  have hcoordinate (x : Single) : OneLine ((x.mul .ten).fixedText 4) := oneLine_fixedText 4 _
  exact (((((oneLine_symbol species).append oneLine_space).append (hcoordinate p.x)).append
    oneLine_space |>.append (hcoordinate p.y)).append oneLine_space).append (hcoordinate p.z)

/-! ### What a block is -/

/-- **The block of a frame**: the number of particles, the number of the frame and the id of the
segment that carried it, and for each particle its symbol and its coordinates times ten. -/
structure IsBlock (index : Nat) (s : Segment) (frame : Frame) (lines : List String) : Prop where
  /-- There is one line for each particle, and two more. -/
  length_eq : lines.length = s.species.length + 2
  /-- The first line has the number of particles. -/
  count_eq : lines[0]? = some (toString s.species.length)
  /-- The second line has the number of the frame and the id of the segment. -/
  comment_eq : lines[1]? =
    some ("frame " ++ toString index ++ " segment " ++ toString s.id.toNat)
  /-- No particle is left out: each has a position. -/
  frame_length_eq : frame.length = s.species.length
  /-- The lines behind have the particles, in order. -/
  atom_eq : ∀ (k : Nat) (species : UInt8) (p : Position), s.species[k]? = some species →
    frame[k]? = some p → lines[k + 2]? = some (Species.symbol species ++ " " ++
      (p.x.mul .ten).fixedText 4 ++ " " ++ (p.y.mul .ten).fixedText 4 ++ " " ++
      (p.z.mul .ten).fixedText 4)
  /-- Each of them is one line. -/
  oneLine : ∀ line ∈ lines, OneLine line

/-- **Each frame is written as its block**, if it has a position for every particle. -/
theorem isBlock_blockLines (index : Nat) {s : Segment} {frame : Frame}
    (hframe : frame.length = s.species.length) :
    IsBlock index s frame (blockLines index s.id s.species frame) where
  length_eq := by simp [blockLines, hframe]
  count_eq := rfl
  comment_eq := rfl
  frame_length_eq := hframe
  atom_eq := by
    intro k species p hspecies hp
    have hzip : (s.species.zip frame)[k]? = some (species, p) := by
      rw [List.getElem?_zip_eq_some]
      exact ⟨hspecies, hp⟩
    simp [blockLines, hzip, atomLine]
  oneLine := by
    intro line hline
    rcases List.mem_cons.mp hline with rfl | hline
    · exact oneLine_toString _
    rcases List.mem_cons.mp hline with rfl | hline
    · have hframe : OneLine "frame " := by
        unfold OneLine
        decide
      have hsegment : OneLine " segment " := by
        unfold OneLine
        decide
      exact ((hframe.append (oneLine_toString index)).append hsegment).append
        (oneLine_toString _)
    · obtain ⟨⟨species, p⟩, -, rfl⟩ := List.mem_map.mp hline
      exact oneLine_atomLine species p

/-- **A frame has one block.** -/
theorem IsBlock.eq {index : Nat} {s : Segment} {frame : Frame} {lines lines' : List String}
    (h : IsBlock index s frame lines) (h' : IsBlock index s frame lines') : lines = lines' := by
  have hlength := h.length_eq.trans h'.length_eq.symm
  refine List.ext_getElem? fun i => ?_
  by_cases hi : i < lines.length
  · match i with
    | 0 => exact h.count_eq.trans h'.count_eq.symm
    | 1 => exact h.comment_eq.trans h'.comment_eq.symm
    | k + 2 =>
      have hk : k < s.species.length := by
        rw [h.length_eq] at hi
        omega
      have hspecies := List.getElem?_eq_getElem hk
      have hposition := List.getElem?_eq_getElem (h.frame_length_eq ▸ hk)
      exact (h.atom_eq k _ _ hspecies hposition).trans (h'.atom_eq k _ _ hspecies hposition).symm
  · rw [List.getElem?_eq_none (Nat.le_of_not_lt hi),
      List.getElem?_eq_none (hlength ▸ Nat.le_of_not_lt hi)]

/-! ### The blocks of segments -/

/-- The frames of some segments, each with the segment that carries it. -/
def carried (segments : List Segment) : List (Segment × Frame) :=
  segments.flatMap fun s => s.frames.map fun frame => (s, frame)

/-- **Blocks that are numbered as the frames of some segments**: there is one for each frame, and in
its place. -/
structure Numbered (segments : List Segment) (blocks : List (List String)) : Prop where
  /-- There are as many. -/
  length_eq : blocks.length = (carried segments).length
  /-- Each is the block of the frame in its place. -/
  isBlock : ∀ (i : Nat) (s : Segment) (frame : Frame) (lines : List String),
    (carried segments)[i]? = some (s, frame) → blocks[i]? = some lines → IsBlock i s frame lines

/-- **The frames of segments are written in one way.** -/
theorem Numbered.eq {segments : List Segment} {blocks blocks' : List (List String)}
    (h : Numbered segments blocks) (h' : Numbered segments blocks') : blocks = blocks' := by
  refine List.ext_getElem (h.length_eq.trans h'.length_eq.symm) fun i hi hi' => ?_
  have hcarried := List.getElem?_eq_getElem (h.length_eq ▸ hi)
  exact (h.isBlock i _ _ _ hcarried (List.getElem?_eq_getElem hi)).eq
    (h'.isBlock i _ _ _ hcarried (List.getElem?_eq_getElem hi'))

/-- The blocks of one segment, of which the first has the given number. -/
def segmentBlocks (first : Nat) (s : Segment) : List (List String) :=
  s.frames.mapIdx fun k frame => blockLines (first + k) s.id s.species frame

/-- The blocks of some segments, segment by segment. -/
def pieces : (first : Nat) → List Segment → List (List (List String))
  | _, [] => []
  | first, s :: segments => segmentBlocks first s :: pieces (first + s.frames.length) segments

/-- The bytes of some blocks. -/
def contents (blocks : List (List String)) : Bytes := Utf8.encode (ended blocks.flatten)

theorem contents_nil : contents [] = [] := rfl

theorem contents_append (blocks more : List (List String)) :
    contents (blocks ++ more) = contents blocks ++ contents more := by
  rw [contents, List.flatten_append, ended_append, Utf8.encode, String.toByteArray_append]
  simp [contents, Utf8.encode]

theorem blocks_eq (id : UInt32) (species : Bytes) (first : Nat) (frames : List Frame) :
    blocks id species first frames =
      (frames.mapIdx fun k frame => blockLines (first + k) id species frame).map ended := by
  induction frames generalizing first with
  | nil => rfl
  | cons frame frames ih =>
    rw [blocks, ih, List.mapIdx_cons, List.map_cons, block_eq]
    simp only [Nat.add_zero, Nat.add_assoc, Nat.add_comm 1]

theorem join_map_ended (blocks : List (List String)) :
    String.join (blocks.map ended) = ended blocks.flatten := by
  induction blocks with
  | nil => rfl
  | cons lines blocks ih =>
    rw [List.map_cons, String.join_cons, ih, List.flatten_cons, ended_append]

/-- **The bytes for a segment** are those of its blocks. -/
theorem segmentBytes_eq (first : Nat) (s : Segment) :
    segmentBytes first s.id s.species s.frames = contents (segmentBlocks first s) := by
  rw [segmentBytes, blocks_eq, join_map_ended]
  rfl

theorem length_pieces (first : Nat) (segments : List Segment) :
    (pieces first segments).length = segments.length := by
  induction segments generalizing first with
  | nil => rfl
  | cons s segments ih => rw [pieces, List.length_cons, ih, List.length_cons]

/-- The blocks of the first segments do not depend on those that follow. -/
theorem take_pieces (first k : Nat) (segments : List Segment) :
    (pieces first segments).take k = pieces first (segments.take k) := by
  induction segments generalizing first k with
  | nil => simp [pieces]
  | cons s segments ih =>
    cases k with
    | zero => rfl
    | succ k => rw [pieces, List.take_succ_cons, ih, List.take_succ_cons, pieces]

/-- Over several segments the blocks are numbered as over one. -/
theorem flatten_pieces (first : Nat) (segments : List Segment) :
    (pieces first segments).flatten = (carried segments).mapIdx fun i (s, frame) =>
      blockLines (first + i) s.id s.species frame := by
  induction segments generalizing first with
  | nil => rfl
  | cons s segments ih =>
    have hcarried : carried (s :: segments) =
        (s.frames.map fun frame => (s, frame)) ++ carried segments := List.flatMap_cons
    have hblocks : segmentBlocks first s =
        (s.frames.map fun frame => (s, frame)).mapIdx fun i (s, frame) =>
          blockLines (first + i) s.id s.species frame := by
      refine List.ext_getElem? fun i => ?_
      rw [segmentBlocks, List.getElem?_mapIdx, List.getElem?_mapIdx, List.getElem?_map,
        Option.map_map]
      rfl
    rw [pieces, List.flatten_cons, ih, hcarried, List.mapIdx_append, List.length_map, hblocks]
    simp only [Nat.add_assoc, Nat.add_comm s.frames.length]

/-- **The blocks of segments are numbered throughout.** -/
theorem numbered_pieces {segments : List Segment} (h : ∀ s ∈ segments, s.WellFormed) :
    Numbered segments (pieces 0 segments).flatten := by
  rw [flatten_pieces]
  constructor
  · exact List.length_mapIdx
  · intro i s frame lines hcarried hlines
    have hmem := List.mem_of_getElem? hcarried
    obtain ⟨r, hr, hmem⟩ := List.mem_flatMap.mp hmem
    obtain ⟨frame', hframe', heq⟩ := List.mem_map.mp hmem
    obtain ⟨rfl, rfl⟩ := Prod.mk.inj heq
    rw [List.getElem?_mapIdx, hcarried, Option.map_some, Option.some.injEq] at hlines
    rw [← hlines, Nat.zero_add]
    exact isBlock_blockLines i ((h r hr).length_eq frame' hframe')

/-- **The pieces of a text are told by their numbers**: if the blocks are numbered however many
segments are taken, each piece has the blocks of its segment. -/
theorem eq_pieces_of_numbered {segments : List Segment} {parts : List (List (List String))}
    (hwell : ∀ s ∈ segments, s.WellFormed) (hlength : parts.length = segments.length)
    (h : ∀ k, Numbered (segments.take k) (parts.take k).flatten) : parts = pieces 0 segments := by
  have hflatten (k : Nat) : (parts.take k).flatten = ((pieces 0 segments).take k).flatten := by
    rw [take_pieces]
    exact (h k).eq (numbered_pieces fun s hs => hwell s (List.mem_of_mem_take hs))
  refine List.ext_getElem (hlength.trans (length_pieces 0 segments).symm) fun k hk hk' => ?_
  have hnext := hflatten (k + 1)
  simp only [List.take_add_one, List.getElem?_eq_getElem hk, List.getElem?_eq_getElem hk',
    Option.toList_some, List.flatten_append, List.flatten_singleton, hflatten k] at hnext
  exact List.append_cancel_left hnext

end Xyz

end Deposition
