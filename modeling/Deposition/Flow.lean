import Deposition.Message

/-!
# Fetching segments one after the other

A job's segments are asked for one at a time, in the order of their ids, starting at 1. The flow
remembers which one is next, what the server has announced, and whether the next one is *in flight*:
being asked for, or about to be. That flag is what keeps two requests from going out at once.

Announcements may come in any order: the latest segment never moves back, and once the last segment
of the job has been announced the job is complete for good.
-/

namespace Deposition

/-- The state of a download. -/
structure Flow where
  /-- The segment that comes next. -/
  next : UInt32 := 1
  /-- The latest segment that the server has announced. -/
  latest : UInt32 := 0
  /-- How many segments the job has, by the last announcement. -/
  total : UInt32 := 0
  /-- Whether the next segment is in flight. -/
  waiting : Bool := false
  /-- Whether the last segment of the job has been announced. -/
  complete : Bool := false
deriving DecidableEq

/-- What is to be done next. -/
inductive FlowStep
  /-- Nothing, until the server says more. -/
  | idle
  /-- Ask for this segment. -/
  | request (id : UInt32)
  /-- Nothing more: every segment of a complete job is there. -/
  | finished
deriving DecidableEq

namespace Flow

/-- Notes an announcement. -/
def announce (flow : Flow) (available : Availability) : Flow :=
  { flow with
    total := available.total
    latest := if flow.latest < available.latest then available.latest else flow.latest
    complete := flow.complete || available.latest == available.total }

/-- Whether a segment of this id is the one in flight. -/
def expects (flow : Flow) (id : UInt32) : Bool := flow.waiting && id == flow.next

/-- The id after this one; the last id is followed by itself. -/
def successor (id : UInt32) : UInt32 := if id.toNat = maxWord then id else id + 1

/-- Notes that the segment in flight has arrived. -/
def received (flow : Flow) : Flow := { flow with waiting := false, next := successor flow.next }

/-- Notes that the server does not have a segment yet. This matters only for the one in flight, and
the flag says whether it did. -/
def notReady (flow : Flow) (id : UInt32) : Flow × Bool :=
  if flow.expects id then ({ flow with waiting := false }, true) else (flow, false)

/-- What is to be done next; a request puts the next segment in flight. -/
def evaluate (flow : Flow) : Flow × FlowStep :=
  if flow.latest < flow.next then
    ({ flow with waiting := false }, if flow.complete then .finished else .idle)
  else if flow.waiting then (flow, .idle)
  else ({ flow with waiting := true }, .request flow.next)

theorem toNat_successor (id : UInt32) : (successor id).toNat = min (id.toNat + 1) maxWord := by
  have h := id.toNat_lt
  unfold successor maxWord
  split
  · omega
  · rw [UInt32.toNat_add]
    have : (1 : UInt32).toNat = 1 := rfl
    omega

end Flow

end Deposition
