import Deposition.Json.Record
import Deposition.Text.Quoted

/-!
# Text messages

Segments travel as binary messages; everything else a client and the server say to each other is
text. The server's texts are three fixed words, an announcement of what can be fetched, and the
answer that a segment is not there yet. A client sends the configuration of a job, the word that
cancels it, or the id of the segment it wants.

Reading is strict about the two texts that carry numbers – a number that does not fit 32 bits is an
error, never another number – and lenient about everything else: a text that matches nothing is
`Deposition.ServerMessage.unknown`.
-/

namespace Deposition

/-- What the server announces: the latest segment that is ready, and how many there will be. -/
structure Availability where
  /-- The latest segment that can be fetched. -/
  latest : UInt32
  /-- The number of segments of the whole job. -/
  total : UInt32
deriving DecidableEq

/-- The greatest 32-bit word. -/
def maxWord : Nat := 4294967295

/-- Reads an announcement: the fields `l` and `f`, both whole numbers of 32 bits. -/
def Availability.ofJson? (j : Json) : Option Availability := do
  match ← j.fields? ["l", "f"] with
  | [latest, total] =>
    let latest ← Json.required? (Json.natural? maxWord) latest
    let total ← Json.required? (Json.natural? maxWord) total
    return ⟨UInt32.ofNat latest, UInt32.ofNat total⟩
  | _ => none

/-- A text from the server. -/
inductive ServerMessage
  /-- The job waits for its turn. -/
  | queued
  /-- Segments can be fetched. -/
  | newFrames (available : Availability)
  /-- The segment that was asked for does not exist yet. -/
  | segmentNotReady (id : UInt32)
  /-- The job is cancelled. -/
  | cancelled
  /-- The job has failed. -/
  | failed
  /-- Any other text. -/
  | unknown (text : String)
deriving DecidableEq

/-- Why a text from the server cannot be read. -/
inductive MessageError
  /-- What follows `new_frames` is no announcement. -/
  | badAnnouncement (payload : String)
  /-- What follows `no_seg` is no id. -/
  | badSegmentId (text : String)
deriving DecidableEq

/-- What is said about an unreadable text. -/
def MessageError.message : MessageError → String
  | .badAnnouncement payload =>
    "bad availability announcement " ++ quoted payload ++ ": expected two counts of segments"
  | .badSegmentId text => "bad segment id in " ++ quoted text

/-- Reads a text from the server. -/
def ServerMessage.parse (text : String) : Except MessageError ServerMessage :=
  if text = "queued" then .ok .queued
  else if text = "cancel" then .ok .cancelled
  else if text = "failed" then .ok .failed
  else
    match Text.after? "new_frames" text with
    | some payload =>
      match (Json.read? payload).bind Availability.ofJson? with
      | some available => .ok (.newFrames available)
      | none => .error (.badAnnouncement payload)
    | none =>
      match Text.after? "no_seg" text with
      | some id =>
        match Text.wholeNumber? maxWord (Text.trim id) with
        | some id => .ok (.segmentNotReady (UInt32.ofNat id))
        | none => .error (.badSegmentId text)
      | none => .ok (.unknown text)

/-- A text to the server. -/
inductive ClientMessage
  /-- Run a job with this configuration. -/
  | submit (payload : String)
  /-- Stop the running job. -/
  | cancel
  /-- Send this segment. -/
  | request (id : UInt32)
deriving DecidableEq

/-- The text of a message to the server. -/
def ClientMessage.text : ClientMessage → String
  | .submit payload => payload
  | .cancel => "cancel"
  | .request id => toString id.toNat

end Deposition
