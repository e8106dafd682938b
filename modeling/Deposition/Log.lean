/-!
# The log

What the program does on its own account – drop a message, ask again, close a file – it notes in a
log. An entry has a level, a fixed text, and named values for what varies.
-/

namespace Deposition

namespace Log

/-- How much an entry matters. -/
inductive Level
  /-- For those who look closely. -/
  | debug
  /-- For everyone. -/
  | info
  /-- Something is not as it should be. -/
  | warn
deriving DecidableEq

/-- A value in an entry. -/
inductive Value
  /-- A number. -/
  | number (n : Nat)
  /-- A truth value. -/
  | flag (b : Bool)
  /-- A text. -/
  | text (s : String)
deriving DecidableEq

/-- One entry. -/
structure Entry where
  /-- How much it matters. -/
  level : Level
  /-- What it says. -/
  message : String
  /-- What varies, by name. -/
  fields : List (String × Value) := []
deriving DecidableEq

/-- An entry for those who look closely. -/
def debug (message : String) (fields : List (String × Value) := []) : Entry :=
  ⟨.debug, message, fields⟩

/-- An entry for everyone. -/
def info (message : String) (fields : List (String × Value) := []) : Entry :=
  ⟨.info, message, fields⟩

/-- An entry about something that is not as it should be. -/
def warn (message : String) (fields : List (String × Value) := []) : Entry :=
  ⟨.warn, message, fields⟩

end Log

end Deposition
