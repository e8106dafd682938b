import Deposition.Catalog
import Deposition.Message

/-!
# Arguments that assign a value to a name

On the command line a component or a setting is given as `NAME=VALUE`. The first equals sign divides
the two, and blanks around either are taken off. A ratio is a number from 0 to the greatest 32-bit
word, whose fraction is dropped; the value of a setting is any finite number.
-/

namespace Deposition

namespace Assignment

/-- The name and the value of an argument, neither of which may be blank. -/
def split (text : String) : Except ConfigurationError (String × String) :=
  match Text.cutAt? '=' text with
  | some (key, value) =>
    let key := Text.trim key
    let value := Text.trim value
    if key.isEmpty || value.isEmpty then .error (.malformedAssignment text)
    else .ok (key, value)
  | none => .error (.malformedAssignment text)

/-- The whole number in a ratio; a number that is negative, too large or not finite is none. -/
def ratio? : Binary.Value → Option Nat
  | .finite negative m q =>
    if (negative && m != 0) || Binary.Value.exceeds maxWord m q then none
    else some (Binary.Value.truncate m q)
  | _ => none

/-- Reads a component and its ratio. -/
def readRatio (text : String) : Except ConfigurationError (String × Nat) := do
  let (key, value) ← split text
  match (Number.read? value).bind ratio? with
  | some ratio => .ok (key, ratio)
  | none => .error (.invalidNumber key value)

/-- Reads a setting and its value. -/
def readSetting (text : String) : Except ConfigurationError (String × Float) := do
  let (key, value) ← split text
  match (Number.read? value).filter Binary.Value.isFinite with
  | some x => .ok (key, Binary.toFloat x)
  | none => .error (.invalidNumber key value)

end Assignment

end Deposition
