import Deposition.Text.Hidden

/-!
# Quoted text

Messages that show a piece of the user's input show it in double quotes, so that blanks at its ends
and characters with no shape of their own can be seen. The quotation is for reading, not for being
read back by this program: a quote and a backslash get a backslash, the common controls their usual
letter, and anything else that a screen would hide is spelled by its code point in braces.
-/

namespace Deposition

namespace Quoted

/-- Whether a character has to be spelled by its code point. -/
def isHidden (c : Char) : Bool :=
  let n := c.toNat
  n < 0x20 || n == 0x7f || (0x80 ≤ n && Hidden.ranges.any fun (lo, hi) => lo ≤ n && n ≤ hi)

/-- A number in hexadecimal, in lower case. -/
def hex (n : Nat) : String := String.ofList (Nat.toDigits 16 n)

/-- One character inside a quotation. -/
def escape (c : Char) : String :=
  match c with
  | '"' => "\\\""
  | '\\' => "\\\\"
  | '\n' => "\\n"
  | '\r' => "\\r"
  | '\t' => "\\t"
  | '\x00' => "\\0"
  | c => if isHidden c then "\\u\x7b" ++ hex c.toNat ++ "\x7d" else c.toString

end Quoted

/-- A text in quotes, everything in it visible. -/
def quoted (s : String) : String := "\"" ++ String.join (s.toList.map Quoted.escape) ++ "\""

end Deposition
