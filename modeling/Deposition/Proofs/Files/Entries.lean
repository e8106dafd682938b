import Deposition.Files.Basic
import Deposition.Files.DataDirectory

/-!
# Files in a directory

A path is made by putting a slash and one more name behind the path of a directory. Where it leads
depends on the name: one with a slash in it goes further down, one that begins with a slash starts
again at the root, and two dots go back up. A name that is none of this is an *entry*
(`Deposition.Path.IsEntry`), and a path that ends in an entry leads into the directory and no
further: in every tree of files it leads to the place of that name right below the place of the
directory, or nowhere (`Deposition.Path.DirectlyBelow`).

The files of a job are named in this way, each in the directory that is meant for it
(`Deposition.DataDirectory.directlyBelow_archiveFile`,
`Deposition.DataDirectory.directlyBelow_reportFile`). So whether they are there and nowhere else
depends on the characters in the name of the job, and on nothing else.
-/

namespace Deposition

namespace Path

/-- **The name of an entry of a directory**: it has no slash and no zero character, and it is none
of the names that stand for other places. -/
structure IsEntry (name : String) : Prop where
  /-- There is a name. -/
  ne_empty : name ≠ ""
  /-- It is not the directory itself. -/
  ne_dot : name ≠ "."
  /-- It is not the directory above. -/
  ne_dots : name ≠ ".."
  /-- It is one name. -/
  slash_notMem : '/' ∉ name.toList
  /-- A file can have it. -/
  zero_notMem : '\x00' ∉ name.toList

theorem cut_ne_nil (cs : List Char) : cut cs ≠ [] := by
  induction cs with
  | nil => simp [cut]
  | cons c cs ih =>
    by_cases hc : c = '/'
    · simp [hc, cut]
    · rw [cut]
      · split <;> simp
      · exact hc

theorem cut_of_notMem {cs : List Char} (h : '/' ∉ cs) : cut cs = [cs] := by
  induction cs with
  | nil => rfl
  | cons c cs ih =>
    rw [List.mem_cons, not_or] at h
    rw [cut, ih h.2]
    exact fun hc => h.1 hc.symm

/-- The names before a slash, and those behind it. -/
theorem cut_append_slash (cs ds : List Char) : cut (cs ++ '/' :: ds) = cut cs ++ cut ds := by
  induction cs with
  | nil => rfl
  | cons c cs ih =>
    by_cases hc : c = '/'
    · rw [hc, List.cons_append, cut, ih, cut, List.cons_append]
    · obtain ⟨name, names, hcut⟩ := List.exists_cons_of_ne_nil (cut_ne_nil cs)
      rw [List.cons_append, cut, ih, cut, hcut]
      · rfl
      · exact hc
      · exact hc

variable {dir name : String}

/-- The names in a path that ends in an entry. -/
theorem names_append (h : IsEntry name) : names (dir ++ "/" ++ name) = names dir ++ [name] := by
  have hcut : cut (dir ++ "/" ++ name).toList = cut dir.toList ++ [name.toList] := by
    rw [String.toList_append, String.toList_append, List.append_assoc,
      ← cut_of_notMem h.slash_notMem]
    exact cut_append_slash dir.toList name.toList
  have hname : name.toList.isEmpty = false := by simpa using h.ne_empty
  rw [names, names, hcut, List.filter_append, List.map_append]
  simp [hname]

/-- Where a path starts is where the directory starts. -/
theorem isAbsolute_append (hdir : dir ≠ "") :
    isAbsolute (dir ++ "/" ++ name) = isAbsolute dir := by
  obtain ⟨c, cs, hcs⟩ := List.exists_cons_of_ne_nil (mt String.toList_eq_nil_iff.mp hdir)
  rw [isAbsolute, isAbsolute, Bool.eq_iff_iff, String.startsWith_string_iff,
    String.startsWith_string_iff]
  simp [hcs]

theorem endsWith_slash_eq_false_iff {path : String} :
    path.endsWith "/" = false ↔ ¬ ['/'] <:+ path.toList := by
  rw [← String.endsWith_toSlice, String.Slice.endsWith_string_eq_false_iff]
  simp

/-- A path that is put behind another one stays at its end. -/
theorem suffix_join (base path : String) : path.toList <:+ (join base path).toList := by
  rw [join]
  split
  · exact List.suffix_refl _
  split
  · exact ⟨base.toList, by simp⟩
  · exact ⟨(base ++ "/").toList, by simp⟩

/-- An entry is put behind its directory. -/
theorem join_eq_append (h : IsEntry name) (hdir : dir ≠ "") (hend : dir.endsWith "/" = false) :
    join dir name = dir ++ "/" ++ name := by
  have hrelative : isAbsolute name = false := by
    rw [isAbsolute, String.startsWith_string_eq_false_iff]
    exact fun hstarts => h.slash_notMem (hstarts.subset (List.mem_singleton.mpr rfl))
  simp [join, hrelative, hend, hdir]

end Path

namespace Files

variable {f : Files} {dir name : String} {place : List String}

theorem follow_append (f : Files) (place names more : List String) :
    f.follow place (names ++ more) =
      (f.follow place names).bind fun behind => f.follow behind more := by
  induction names generalizing place with
  | nil => rfl
  | cons name names ih =>
    rw [List.cons_append, follow, follow]
    cases f.enter place name with
    | error fault => rfl
    | ok entered => exact ih entered

/-- An entry is entered in its directory, if it is one and the name is not too long. -/
theorem enter_eq_ok_iff (h : Path.IsEntry name) {parent : List String} :
    f.enter parent name = .ok place ↔
      f.find? parent = some .directory ∧ name.utf8ByteSize ≤ longestName ∧
        place = parent ++ [name] := by
  rw [enter]
  cases f.find? parent with
  | none => simp
  | some entry =>
    cases entry with
    | file contents => simp
    | directory =>
      by_cases hlong : longestName < name.utf8ByteSize
      · simp [hlong, Nat.not_le.mpr hlong]
      · simp [hlong, Nat.not_lt.mp hlong, h.ne_dot, h.ne_dots, eq_comm]

/-- A path that ends in an entry is followed to the directory first. -/
theorem locate_append (f : Files) (h : Path.IsEntry name) (hdir : dir ≠ "") :
    f.locate (dir ++ "/" ++ name) = (f.locate dir).bind fun parent => f.enter parent name := by
  have hzero : (dir ++ "/" ++ name).toList.contains '\x00' = dir.toList.contains '\x00' := by
    simp [h.zero_notMem]
  have hempty : (dir ++ "/" ++ name).isEmpty = dir.isEmpty := by
    rw [Bool.eq_iff_iff, String.isEmpty_iff, String.isEmpty_iff]
    simp [hdir]
  rw [locate, locate, hzero, hempty, Path.isAbsolute_append hdir, Path.names_append h]
  split
  · rfl
  split
  · rfl
  · rw [follow_append]
    congr 1
    funext parent
    rw [follow]
    cases f.enter parent name <;> rfl

/-- **A path that ends in an entry leads right below its directory**, or nowhere. -/
theorem locate_append_eq_ok_iff (h : Path.IsEntry name) (hdir : dir ≠ "") :
    f.locate (dir ++ "/" ++ name) = .ok place ↔
      ∃ parent, f.locate dir = .ok parent ∧ f.find? parent = some .directory ∧
        name.utf8ByteSize ≤ longestName ∧ place = parent ++ [name] := by
  rw [locate_append f h hdir]
  cases f.locate dir with
  | error fault => simp [Except.bind]
  | ok parent => simp [Except.bind, enter_eq_ok_iff h]

end Files

/-- **A path to an entry of a directory**: it is the path of the directory with the name behind it,
and in every tree of files it leads right below the directory, or nowhere. -/
structure Path.DirectlyBelow (dir name path : String) : Prop where
  /-- The name is that of an entry. -/
  isEntry : IsEntry name
  /-- The path is one name longer. -/
  eq_append : path = dir ++ "/" ++ name
  /-- It leads to the entry of this name, if the directory is there and the name is not too
  long. -/
  locate_eq_ok_iff : ∀ (f : Files) (place : List String), f.locate path = .ok place ↔
    ∃ parent, f.locate dir = .ok parent ∧ f.find? parent = some .directory ∧
      name.utf8ByteSize ≤ Files.longestName ∧ place = parent ++ [name]

namespace DataDirectory

/-- The directories below the data directory have names that do not end in a slash, so an entry is
put behind them as it is. -/
theorem directlyBelow_join {base path name : String} (h : Path.IsEntry name) (hpath : path ≠ "")
    (hend : path.endsWith "/" = false) :
    Path.DirectlyBelow (Path.join base path) name (Path.join (Path.join base path) name) := by
  have hsuffix := Path.suffix_join base path
  have hne : Path.join base path ≠ "" := by
    rintro hempty
    rw [hempty, String.toList_empty, List.suffix_nil, String.toList_eq_nil_iff] at hsuffix
    exact hpath hsuffix
  have hjoin : Path.join (Path.join base path) name = Path.join base path ++ "/" ++ name := by
    refine Path.join_eq_append h hne ?_
    rw [Path.endsWith_slash_eq_false_iff] at hend ⊢
    intro hslash
    have hlength : 0 < path.toList.length :=
      List.length_pos_iff.mpr (mt String.toList_eq_nil_iff.mp hpath)
    exact hend (List.suffix_of_suffix_length_le hslash hsuffix hlength)
  rw [hjoin]
  exact ⟨h, rfl, fun f place => Files.locate_append_eq_ok_iff h hne⟩

/-- **The archive of a job is an entry of the directory of the archives.** -/
theorem directlyBelow_archiveFile (d : DataDirectory) {job : String}
    (h : Path.IsEntry (job ++ ".dtrj")) :
    Path.DirectlyBelow d.archives (job ++ ".dtrj") (d.archiveFile job) :=
  directlyBelow_join h (by decide) (Path.endsWith_slash_eq_false_iff.mpr (by decide))

/-- **The report on a job is an entry of the directory of the reports.** -/
theorem directlyBelow_reportFile (d : DataDirectory) {job : String}
    (h : Path.IsEntry (job ++ ".heightmap.json")) :
    Path.DirectlyBelow d.reports (job ++ ".heightmap.json") (d.reportFile job) :=
  directlyBelow_join h (by decide) (Path.endsWith_slash_eq_false_iff.mpr (by decide))

end DataDirectory

end Deposition
