/-!
# Bytes as text

`Text.decode` reads bytes as UTF-8.  Where they are no text, the result is the number of
bytes before the first one that does not belong to a character.
-/

namespace TableQuery.Text

/-- The number of bytes up to the first one from `i` on that does not belong to a
character. -/
def validLength (bytes : ByteArray) (i : Nat) : Nat :=
  match _h : bytes.utf8DecodeChar? i with
  | some c => validLength bytes (i + c.utf8Size)
  | none => i
termination_by bytes.size - i
decreasing_by
  have hi : i < bytes.size :=
    ByteArray.lt_size_of_isSome_utf8DecodeChar? (by rw [_h]; rfl)
  have := c.utf8Size_pos
  omega

/-- The text that bytes spell, or the number of valid bytes before the first fault. -/
def decode (bytes : List UInt8) : Except Nat String :=
  let array : ByteArray := ⟨bytes.toArray⟩
  match String.fromUTF8? array with
  | some s => .ok s
  | none => .error (validLength array 0)

/-- The bytes of a text. -/
def encode (s : String) : List UInt8 :=
  s.toUTF8.data.toList

theorem decode_encode (s : String) :
  decode (encode s) = .ok s
  := by
  simp [decode, encode, String.fromUTF8?, String.fromUTF8, s.isValidUTF8]

end TableQuery.Text
