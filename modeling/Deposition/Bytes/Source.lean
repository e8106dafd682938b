import Deposition.Bytes.LittleEndian

/-!
# Where bytes come from

An archive is read from a file, and a file hands over its bytes in portions of its own choosing, may
be interrupted in between, and may break. A `Deposition.Source` is what a reader will be handed, in
order: portions of bytes, interruptions, and faults. An interruption passes – whoever is reading
tries again – while a fault stays where it is and every later read meets it.

Three ways of reading are all that an archive needs: a byte that may be missing
(`Deposition.Source.byte?`), exactly so many bytes (`Deposition.Source.take`), and so many bytes
that nobody wants (`Deposition.Source.skip`). The first tells the end of the input from a fault,
the second makes the end an error, and the third does not mind the end at all.
-/

namespace Deposition

/-- What a file system refuses. -/
inductive FileFault
  /-- There is no such file. -/
  | notFound
  /-- Something else of this name is there. -/
  | alreadyExists
  /-- A file stands where a directory is needed. -/
  | notADirectory
  /-- A directory stands where a file is needed. -/
  | isADirectory
  /-- A file that should hold text does not. -/
  | notText
  /-- The path is not one that a file can have. -/
  | badPath
  /-- A name in the path is longer than names can be. -/
  | nameTooLong
deriving DecidableEq

/-- Why reading or writing fails. -/
inductive IoError
  /-- The input ends before what has to be read. -/
  | unexpectedEnd
  /-- A chunk does not fit its length fields. -/
  | chunkTooLarge
  /-- A chunk is too short to hold the length of its contents. -/
  | chunkTooShort
  /-- The contents of a chunk cannot be decompressed. -/
  | badCompression
  /-- The device gives up, with words of its own. -/
  | device (text : String)
  /-- The file system refuses. -/
  | file (fault : FileFault)
deriving DecidableEq

/-- What is said about a refusal of the file system. -/
def FileFault.message : FileFault → String
  | .notFound => "no such file or directory"
  | .alreadyExists => "file exists"
  | .notADirectory => "not a directory"
  | .isADirectory => "is a directory"
  | .notText => "stream did not contain valid UTF-8"
  | .badPath => "file name contained an unexpected NUL byte"
  | .nameTooLong => "file name too long"

/-- What is said about a failure. -/
def IoError.message : IoError → String
  | .unexpectedEnd => "failed to fill whole buffer"
  | .chunkTooLarge => "chunk too large"
  | .chunkTooShort => "chunk shorter than its length prefix"
  | .badCompression => "lz4 decompression failed"
  | .device text => text
  | .file fault => fault.message

/-- What a reader is handed next. -/
inductive Delivery
  /-- Some bytes. -/
  | data (bytes : Bytes)
  /-- An interruption, after which the reader tries again. -/
  | interrupted
  /-- A fault, which does not go away. -/
  | fault (error : IoError)
deriving DecidableEq

/-- Everything that a reader will be handed, in order; then comes the end. -/
abbrev Source := List Delivery

namespace Source

/-- The bytes of a run, in one portion. -/
def ofBytes (bytes : Bytes) : Source := [.data bytes]

/-- How many bytes there are in all. -/
def size : Source → Nat
  | [] => 0
  | .data bytes :: rest => bytes.length + size rest
  | _ :: rest => size rest

/-- The next byte with what follows it, or nothing at the end. -/
def byte? : Source → Except IoError (Option (UInt8 × Source))
  | [] => .ok none
  | .data [] :: rest => byte? rest
  | .data (b :: bytes) :: rest => .ok (some (b, .data bytes :: rest))
  | .interrupted :: rest => byte? rest
  | .fault error :: _ => .error error

/-- The next `count` bytes with what follows them. Nothing is read for no bytes. -/
def take (count : Nat) : Source → Except IoError (Bytes × Source)
  | [] => if count = 0 then .ok ([], []) else .error .unexpectedEnd
  | .data bytes :: rest =>
    if count ≤ bytes.length then .ok (bytes.take count, .data (bytes.drop count) :: rest)
    else (take (count - bytes.length) rest).map fun (more, rest) => (bytes ++ more, rest)
  | .interrupted :: rest =>
    if count = 0 then .ok ([], .interrupted :: rest) else take count rest
  | .fault error :: rest =>
    if count = 0 then .ok ([], .fault error :: rest) else .error error

/-- What follows the next `count` bytes, or the end if there are not so many. -/
def skip (count : Nat) : Source → Except IoError Source
  | [] => .ok []
  | .data bytes :: rest =>
    if count ≤ bytes.length then .ok (.data (bytes.drop count) :: rest)
    else skip (count - bytes.length) rest
  | .interrupted :: rest => if count = 0 then .ok (.interrupted :: rest) else skip count rest
  | .fault error :: rest => if count = 0 then .ok (.fault error :: rest) else .error error

/-- The next word with what follows it. -/
def word (source : Source) : Except IoError (UInt32 × Source) := do
  let (bytes, rest) ← source.take 4
  match Word.take? bytes with
  | some (w, _) => return (w, rest)
  | none => throw .unexpectedEnd

/-- What is taken and what is left make up the whole. -/
theorem size_of_take {count : Nat} {source rest : Source} {bytes : Bytes}
    (h : source.take count = .ok (bytes, rest)) : source.size = count + rest.size := by
  fun_induction take count source generalizing bytes rest with
  | case1 => simp_all [size]
  | case2 => simp at h
  | case3 count bytes' rest' hle =>
    simp only [Except.ok.injEq, Prod.mk.injEq] at h
    rw [← h.2]
    simp only [size, List.length_drop]
    omega
  | case4 count bytes' rest' hlt ih =>
    cases hm : take (count - bytes'.length) rest' with
    | error e => simp [hm, Except.map] at h
    | ok p =>
      simp only [hm, Except.map, Except.ok.injEq, Prod.mk.injEq] at h
      have := ih hm
      simp only [size, this, ← h.2]
      omega
  | case5 =>
    simp only [Except.ok.injEq, Prod.mk.injEq] at h
    simp [← h.2]
  | case6 rest' count hne ih => simpa [size] using ih h
  | case7 =>
    simp only [Except.ok.injEq, Prod.mk.injEq] at h
    simp [← h.2]
  | case8 => simp at h

end Source

end Deposition
