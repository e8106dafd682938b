import Deposition.Json.Reader
import Deposition.Number.Reader

/-!
# Taking typed values out of JSON

A catalog, a settings file and an announcement each have a fixed list of fields. A record is read
from an object, whose further members are ignored, or from an array that gives the fields in order.
In an object a field may not come twice; in an array nothing may follow the last field. What happens
to a field that is missing is for the record to say, so `Deposition.Json.fields?` only reports it.

Numbers are read by their literal. A whole number has digits only – neither `1.0` nor `-0` is one –
and has to fit its type. A number in double precision is read quickly rather than exactly: the
leading digits that fit 64 bits, as one number, times or divided by a power of ten. Up to 15 digits
and small exponents that is the nearest double-precision number, and beyond it can be a neighbour.
-/

namespace Deposition

namespace Json

/-! ### Fields -/

/-- The value of a member, unless it comes more than once. -/
def lookup? (members : List (Option String × Json)) (name : String) : Option (Option Json) :=
  match members.filter fun (key, _) => key == some name with
  | [] => some none
  | [(_, value)] => some (some value)
  | _ => none

/-- The fields of a record, each with its value or reported missing. A name without text cannot be
compared with the fields' names, and the record is refused. -/
def fields? (names : List String) : Json → Option (List (Option Json))
  | .object members =>
    if members.all fun (key, _) => key.isSome then names.mapM (lookup? members) else none
  | .array items =>
    if names.length < items.length then none
    else some (items.map some ++ List.replicate (names.length - items.length) none)
  | _ => none

/-- A field that has to be there. -/
def required? {α : Type} (read : Json → Option α) (field : Option Json) : Option α :=
  field.bind read

/-- A field with a value for when it is missing. -/
def orDefault? {α : Type} (default : α) (read : Json → Option α) : Option Json → Option α
  | some value => read value
  | none => some default

/-- A value that may be `null`. -/
def nullable? {α : Type} (read : Json → Option α) : Json → Option (Option α)
  | .null => some none
  | value => (read value).map some

/-! ### Scalars and lists -/

/-- The text of a string. -/
def text? : Json → Option String
  | .string s => s
  | _ => none

/-- A truth value. -/
def bool? : Json → Option Bool
  | .bool b => some b
  | _ => none

/-- The elements of an array, each read in the same way. -/
def list? {α : Type} (read : Json → Option α) : Json → Option (List α)
  | .array items => items.mapM read
  | _ => none

/-- A whole number of at most `limit`. -/
def natural? (limit : Nat) : Json → Option Nat
  | .number literal =>
    let digits := literal.toList
    if digits.all Text.isDigit && Text.digitsValue digits ≤ limit then
      some (Text.digitsValue digits)
    else none
  | _ => none

/-! ### Numbers in double precision -/

/-- The greatest 64-bit word. -/
def wordLimit : Nat := UInt64.size - 1

/-- The leading digits, with a number of earlier ones, that fit 64 bits; and how many digits are
left over. -/
def packDigits (start : Nat) : List Char → Nat × Nat
  | [] => (start, 0)
  | c :: rest =>
    let next := 10 * start + Text.digitValue c
    if next ≤ wordLimit then packDigits next rest else (start, rest.length + 1)

/-- The powers of ten that have a double-precision number. -/
def greatestPower : Nat := 308

/-- A number times or divided by a power of ten, in steps of at most the greatest power; none when
the result is too large. Every step brings the exponent nearer to zero, and `fuel` is how many there
can be. -/
def scale? : (fuel : Nat) → (exponent : Int) → Float → Option Float
  | 0, _, x => some x
  | fuel + 1, exponent, x =>
    if exponent.natAbs ≤ greatestPower then
      let power := Float.ofScientific 1 false exponent.natAbs
      if 0 ≤ exponent then
        let scaled := x * power
        if scaled.isInf then none else some scaled
      else some (x / power)
    else if x == 0.0 then some x
    else if 0 ≤ exponent then none
    else scale? fuel (exponent + greatestPower) (x / Float.ofScientific 1 false greatestPower)

/-- The double-precision number that a numeral is read as. -/
def quickFloat? (n : Numeral) : Option Float :=
  let (packed, left) := packDigits 0 n.whole
  let (packed, unread) := packDigits packed n.fraction
  let exponent : Int := n.exponent + left - (n.fraction.length - unread : Nat)
  let magnitude := scale? (exponent.natAbs / greatestPower + 2) exponent packed.toUInt64.toFloat
  magnitude.map fun x => if n.negative then -x else x

/-- A number in double precision. -/
def double? : Json → Option Float
  | .number literal => (Number.numeral? literal.toList).bind quickFloat?
  | _ => none

end Json

end Deposition
