import Deposition.Session.Basic

/-!
# The connection to the server

One task looks after the socket. It dials as soon as it starts, and from then on at every
*reconnect check* that finds the socket down, so there is never more than one socket. It passes on
what comes in as events of the session, and writes what the session sends.

A message that is picked up while the socket is down is dropped: nothing is kept for later. While
the socket is being dialled nothing is picked up at all.
-/

namespace Deposition

/-- What a socket hands over. -/
inductive SocketMessage
  /-- A text. -/
  | text (text : String)
  /-- Bytes. -/
  | binary (bytes : Bytes)
  /-- A message of the socket's own, of no concern to anyone. -/
  | control
deriving DecidableEq

/-- How things stand with the connection. -/
inductive Connection
  /-- There is no socket. -/
  | down
  /-- A socket is being dialled. -/
  | dialling
  /-- There is a socket. -/
  | up
  /-- The task has ended. -/
  | ended
deriving DecidableEq

namespace Connection

/-- What happens to the connection. -/
inductive Input
  /-- It is time to see whether the socket is down. -/
  | check
  /-- The server has answered the dialling. -/
  | accepted
  /-- The dialling has failed. -/
  | refused
  /-- The socket hands something over. -/
  | received (message : SocketMessage)
  /-- The socket is closed or broken. -/
  | lost
  /-- A message of the session is picked up, and can be written to the socket or not. -/
  | outbound (message : ClientMessage) (writable : Bool)
  /-- The job is over. -/
  | shutdown
deriving DecidableEq

/-- What the connection does. -/
inductive Action
  /-- Dial a socket. -/
  | dial
  /-- Pass an event on to the session. -/
  | forward (event : Event)
  /-- Write a text to the socket. -/
  | write (text : String)
  /-- Close the socket. -/
  | hangUp
deriving DecidableEq

/-- Whether messages of the session are being picked up. -/
def picksUp : Connection → Bool
  | .down | .up => true
  | .dialling | .ended => false

/-- The event that a message of the socket is for the session, if it is one. -/
def event? : SocketMessage → Option Event
  | .text text => some (.text text)
  | .binary bytes => some (.binary bytes)
  | .control => none

/-- One step of the task. What cannot happen as things stand changes nothing. -/
def step : Connection → Input → Connection × List Action
  | .down, .check => (.dialling, [.dial])
  | .dialling, .accepted => (.up, [.forward .connected])
  | .dialling, .refused => (.down, [])
  | .up, .received message => (.up, (event? message).toList.map .forward)
  | .up, .lost => (.down, [.forward .disconnected])
  | .up, .outbound message true => (.up, [.write message.text])
  | .up, .outbound _ false => (.down, [.forward .disconnected])
  | .up, .shutdown => (.ended, [.hangUp])
  | .down, .shutdown | .dialling, .shutdown => (.ended, [])
  | c, _ => (c, [])

/-- A run of the task, with everything that it does in order. -/
def run (c : Connection) : List Input → Connection × List Action
  | [] => (c, [])
  | input :: inputs =>
    let (c, actions) := c.step input
    let (c, more) := c.run inputs
    (c, actions ++ more)

end Connection

end Deposition
