import Deposition.Number.Layout

/-!
# JSON values

Configurations go to the server as JSON, and catalogs, settings and announcements come in as JSON.
This file holds the value type that both directions share and the writer. Two choices in the type
keep what a reader has to know:

* a number is its literal, because a whole number, a decimal and a number too large to represent are
  told apart by how they are written;
* a string may have no text: an escape can name half of a surrogate pair, and a value like that is
  good JSON as long as nobody asks for the text in it.

An object is the list of its members as written. A name may come twice, and their order is the order
in which they are sent.
-/

namespace Deposition

/-- A JSON value. -/
inductive Json
  /-- No value. -/
  | null
  /-- A truth value. -/
  | bool (value : Bool)
  /-- A number, as it is written. -/
  | number (literal : String)
  /-- A string; without text when an escape in it is half of a pair. -/
  | string (text : Option String)
  /-- A list of values. -/
  | array (items : List Json)
  /-- Named values, in the order in which they are written. -/
  | object (members : List (Option String × Json))

namespace Json

/-- A string with this text. -/
def text (s : String) : Json := .string (some s)

/-- A whole number that is not negative. -/
def natural (n : Nat) : Json := .number (String.ofList (Nat.toDigits 10 n))

/-- A whole number. -/
def integer (i : Int) : Json :=
  if i < 0 then .number (String.ofList ('-' :: Nat.toDigits 10 i.natAbs)) else natural i.natAbs

/-- A value that may be missing. -/
def optional {α : Type} (write : α → Json) : Option α → Json
  | some a => write a
  | none => .null

/-- An object whose names all have text. -/
def record (members : List (String × Json)) : Json :=
  .object (members.map fun (name, value) => (some name, value))

/-- Double-precision numbers in JSON: positional from 0.00001 to below 10^16, a whole number keeps
its point, and a signed exponent beyond. -/
def doubleLayout : Layout := ⟨.even, some (-5, 15), true, "null", "null"⟩

/-- Single-precision numbers in JSON: positional from 0.000001 to below 10^13. -/
def singleLayout : Layout := ⟨.even, some (-6, 12), true, "null", "null"⟩

/-- A double-precision number; one that is not finite has no JSON and becomes `null`. -/
def double (x : Float) : Json :=
  match Binary.ofFloat x with
  | .finite negative m q => .number (doubleLayout.text Binary.double (.finite negative m q))
  | _ => .null

/-- A single-precision number; one that is not finite becomes `null`. -/
def single (s : Single) : Json :=
  match s.value with
  | .finite negative m q => .number (singleLayout.text Binary.single (.finite negative m q))
  | _ => .null

/-! ### Writing -/

/-- One character inside a string: quote, backslash and controls are escaped, all else stands for
itself. -/
def escape (c : Char) : List Char :=
  match c with
  | '"' => ['\\', '"']
  | '\\' => ['\\', '\\']
  | '\x08' => ['\\', 'b']
  | '\x0c' => ['\\', 'f']
  | '\n' => ['\\', 'n']
  | '\r' => ['\\', 'r']
  | '\t' => ['\\', 't']
  | c =>
    if c.toNat < 0x20 then
      ['\\', 'u', '0', '0', Nat.digitChar (c.toNat / 16), Nat.digitChar (c.toNat % 16)]
    else [c]

/-- A string in quotes. -/
def quote (s : Option String) : List Char :=
  '"' :: ((s.getD "").toList.flatMap escape ++ ['"'])

mutual

/-- The compact text of a value: no blanks at all. -/
def compactChars : Json → List Char
  | .null => ['n', 'u', 'l', 'l']
  | .bool true => ['t', 'r', 'u', 'e']
  | .bool false => ['f', 'a', 'l', 's', 'e']
  | .number literal => literal.toList
  | .string s => quote s
  | .array items => '[' :: (itemChars items ++ [']'])
  | .object members => '{' :: (memberChars members ++ ['}'])

/-- Values with commas between them. -/
def itemChars : List Json → List Char
  | [] => []
  | [item] => item.compactChars
  | item :: items => item.compactChars ++ ',' :: itemChars items

/-- Members with commas between them. -/
def memberChars : List (Option String × Json) → List Char
  | [] => []
  | [(name, value)] => quote name ++ ':' :: value.compactChars
  | (name, value) :: members =>
    quote name ++ ':' :: (value.compactChars ++ ',' :: memberChars members)

end

/-- The compact text of a value. -/
def compact (j : Json) : String := String.ofList j.compactChars

/-- A line break and the blanks that begin a line of the given depth. -/
def newline (depth : Nat) : List Char := '\n' :: List.replicate (2 * depth) ' '

mutual

/-- The text of a value for a reader: one element or member a line, two blanks for each level, an
empty list or object on its line. -/
def prettyChars (depth : Nat) : Json → List Char
  | .array [] => ['[', ']']
  | .array items => '[' :: (prettyItems (depth + 1) items ++ newline depth ++ [']'])
  | .object [] => ['{', '}']
  | .object members => '{' :: (prettyMembers (depth + 1) members ++ newline depth ++ ['}'])
  | .null => ['n', 'u', 'l', 'l']
  | .bool true => ['t', 'r', 'u', 'e']
  | .bool false => ['f', 'a', 'l', 's', 'e']
  | .number literal => literal.toList
  | .string s => quote s

/-- Values, each on lines of its own. -/
def prettyItems (depth : Nat) : List Json → List Char
  | [] => []
  | [item] => newline depth ++ item.prettyChars depth
  | item :: items => newline depth ++ item.prettyChars depth ++ ',' :: prettyItems depth items

/-- Members, each on lines of its own. -/
def prettyMembers (depth : Nat) : List (Option String × Json) → List Char
  | [] => []
  | [(name, value)] => newline depth ++ quote name ++ ':' :: ' ' :: value.prettyChars depth
  | (name, value) :: members =>
    newline depth ++ quote name ++ ':' :: ' ' :: value.prettyChars depth ++
      ',' :: prettyMembers depth members

end

/-- The text of a value for a reader. -/
def pretty (j : Json) : String := String.ofList (j.prettyChars 0)

end Json

end Deposition
