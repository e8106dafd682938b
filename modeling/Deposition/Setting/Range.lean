import Deposition.Json.Record

/-!
# The range of a setting

A numeric setting of a simulation comes with bounds, a step and words for display. A value that a
user chose is *sanitised* before it is used: snapped to the step, rounded to the decimal places, and
clamped to the bounds, in this order; a value that is no finite number gives way to the default.

All of it is double-precision arithmetic in a fixed order, and `Deposition.Setting.Range.sanitize`
keeps that order, because each of its roundings can be seen in the answer.
-/

namespace Deposition

namespace Setting

/-- A power with a natural exponent, by squaring: the factors are taken in the order of the
exponent's bits, from the lowest. At most `fuel` bits are looked at. -/
def powerFrom : (fuel : Nat) → (acc base : Float) → (exponent : Nat) → Float
  | 0, acc, _, _ => acc
  | fuel + 1, acc, base, exponent =>
    let acc := if exponent % 2 = 1 then acc * base else acc
    if exponent / 2 = 0 then acc else powerFrom fuel acc (base * base) (exponent / 2)

/-- A power of ten; a negative one is the reciprocal of the positive one. -/
def powerOfTen (exponent : Int) : Float :=
  let power := powerFrom (exponent.natAbs.log2 + 1) 1.0 10.0 exponent.natAbs
  if exponent < 0 then 1.0 / power else power

/-- The nearest whole number, a half going away from zero. -/
def nearestWhole (x : Float) : Float := Binary.toFloat (Binary.ofFloat x).round

/-- Bounds and display of one numeric setting. -/
structure Range where
  /-- The value before anyone chooses one. -/
  default : Float
  /-- The lowest value allowed. -/
  min : Option Float := none
  /-- The highest value allowed. -/
  max : Option Float := none
  /-- How many decimal places a value has. -/
  decimalPlaces : Option Nat := none
  /-- The step between values. -/
  increment : Option Float := none
  /-- The unit to display. -/
  displayUnits : Option String := none
  /-- The name to display. -/
  displayName : Option String := none

namespace Range

/-- A range that allows every value. -/
def unbounded (default : Float) : Range := { default }

/-- The step that values snap to: a positive increment, else the last decimal place. -/
def step? (r : Range) : Option Float :=
  let places := r.decimalPlaces.map fun d => powerOfTen (-(d : Int))
  match r.increment with
  | some increment => if increment > 0.0 then some increment else places
  | none => places

/-- The value snapped to the step. -/
def snap (r : Range) (x : Float) : Float :=
  match r.step? with
  | some step => nearestWhole (x / step) * step
  | none => x

/-- The value rounded to the decimal places. -/
def roundPlaces (r : Range) (x : Float) : Float :=
  match r.decimalPlaces with
  | some d =>
    let scale := powerOfTen d
    nearestWhole (x * scale) / scale
  | none => x

/-- The value raised to the lower bound. -/
def raise (r : Range) (x : Float) : Float :=
  match r.min with
  | some low => if x < low then low else x
  | none => x

/-- The value lowered to the upper bound. -/
def lower (r : Range) (x : Float) : Float :=
  match r.max with
  | some high => if x > high then high else x
  | none => x

/-- The value that is used in place of the one chosen. -/
def sanitize (r : Range) (x : Float) : Float :=
  if x.isFinite then r.lower (r.raise (r.roundPlaces (r.snap x))) else r.default

/-- The name to show for a setting: its display name, else its key. -/
def label (r : Range) (key : String) : String := r.displayName.getD key

/-- The greatest number of decimal places that can be written down: a 16-bit word. -/
def maxPlaces : Nat := 65535

/-- The JSON form of a range, every field given. -/
def toJson (r : Range) : Json :=
  .record [("default", .double r.default), ("min", .optional .double r.min),
    ("max", .optional .double r.max), ("dec_places", .optional .natural r.decimalPlaces),
    ("increment", .optional .double r.increment),
    ("display_units", .optional .text r.displayUnits),
    ("display_name", .optional .text r.displayName)]

/-- Reads a range; only the default has to be given. -/
def ofJson? (j : Json) : Option Range := do
  match ← j.fields? ["default", "min", "max", "dec_places", "increment", "display_units",
      "display_name"] with
  | [default, min, max, places, increment, units, name] =>
    return {
      default := ← Json.required? Json.double? default
      min := ← Json.orDefault? none (Json.nullable? Json.double?) min
      max := ← Json.orDefault? none (Json.nullable? Json.double?) max
      decimalPlaces := ← Json.orDefault? none (Json.nullable? (Json.natural? maxPlaces)) places
      increment := ← Json.orDefault? none (Json.nullable? Json.double?) increment
      displayUnits := ← Json.orDefault? none (Json.nullable? Json.text?) units
      displayName := ← Json.orDefault? none (Json.nullable? Json.text?) name }
  | _ => none

end Range

end Setting

end Deposition
