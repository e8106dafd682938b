import Deposition.Bytes.Source

/-!
# Where exported bytes go

An export writes to a medium: an open file, or anything else that takes bytes. A medium can run
full – it then takes what still fits, and the write fails – and it can refuse to flush. Neither
undoes what was written before.
-/

namespace Deposition

/-- Something to write to. -/
structure Medium where
  /-- The bytes written so far. -/
  written : Bytes := []
  /-- How many more bytes fit; without a limit if there is none. -/
  room : Option Nat := none
  /-- Whether flushing fails. -/
  refusesFlush : Bool := false
  /-- How often it was flushed. -/
  flushes : Nat := 0
deriving DecidableEq

namespace Medium

/-- Writes some bytes, or as many as fit. -/
def write (m : Medium) (bytes : Bytes) : Medium × Option IoError :=
  match m.room with
  | none => ({ m with written := m.written ++ bytes }, none)
  | some room =>
    if bytes.length ≤ room then
      ({ m with written := m.written ++ bytes, room := some (room - bytes.length) }, none)
    else
      ({ m with written := m.written ++ bytes.take room, room := some 0 },
        some (.device "disk full"))

/-- Sees to it that what is written stays. -/
def flush (m : Medium) : Medium × Option IoError :=
  if m.refusesFlush then (m, some (.device "flush failed"))
  else ({ m with flushes := m.flushes + 1 }, none)

/-- Writes and then flushes; a write that fails is not flushed. -/
def writeThrough (m : Medium) (bytes : Bytes) : Medium × Option IoError :=
  match m.write bytes with
  | (m, none) => m.flush
  | (m, some error) => (m, some error)

end Medium

end Deposition
