import Deposition.Bytes.LittleEndian

/-!
# Scripted servers

To see what the client does without a server at hand, it is played against a script: what the server
answers when it is asked for its catalog, and for each socket that the client opens, how that socket
fares. A socket that is accepted has a list of *turns*. Whenever the client has sent a message, the
next turn is carried out, action by action.
-/

namespace Deposition

/-- What a scripted server does. -/
inductive ServerAction
  /-- Sends a text. -/
  | text (text : String)
  /-- Sends bytes. -/
  | binary (bytes : Bytes)
  /-- Sends a message of the socket's own. -/
  | ping
  /-- Ends the socket, in whichever way. -/
  | hangUp
  /-- Lets the user interrupt the client. -/
  | interrupt
deriving DecidableEq

/-- How a socket fares. -/
inductive ServerSocket
  /-- It is refused. -/
  | refuse
  /-- It is never answered; the user may interrupt the client meanwhile. -/
  | hang (interrupt : Bool)
  /-- It is accepted, with these turns. -/
  | accept (turns : List (List ServerAction))
deriving DecidableEq

/-- A server that follows a script. -/
structure ServerScript where
  /-- The status and the text with which it answers a request for its catalog; without these it
  cannot be reached. -/
  catalog : Option (Nat × String) := none
  /-- How the sockets fare, in the order in which they are opened. -/
  sockets : List ServerSocket := []
deriving DecidableEq

end Deposition
