import Deposition.Bytes.LittleEndian

/-!
# Text as bytes

Text files, exported trajectories and the octets inside a URL are UTF-8. Reading is strict: bytes
that are no UTF-8 are no text.
-/

namespace Deposition

namespace Utf8

/-- The bytes of a text. -/
def encode (s : String) : Bytes := s.toByteArray.data.toList

/-- The text that bytes spell, if they are UTF-8. -/
def decode? (b : Bytes) : Option String := String.fromUTF8? ⟨b.toArray⟩

/-- The bytes of a text spell that text. -/
theorem decode?_encode (s : String) : decode? (encode s) = some s := by
  have bytes : (⟨(encode s).toArray⟩ : ByteArray) = s.toByteArray := by simp [encode]
  unfold decode?
  generalize (⟨(encode s).toArray⟩ : ByteArray) = b at bytes
  subst bytes
  simp [String.fromUTF8?, String.fromUTF8, s.isValidUTF8]

end Utf8

end Deposition
