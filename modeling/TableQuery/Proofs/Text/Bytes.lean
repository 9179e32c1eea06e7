import TableQuery.Text.Utf8

/-!
# The bytes of characters

The bytes of a text are those of its characters, one character after the other
(`Text.encode_eq_flatMap`).  The ASCII characters have one byte, which occurs in no other
character (`Text.toNat_of_mem_utf8EncodeChar`), and where the bytes of a text start with those of
a character, the text starts with the character.
-/

namespace TableQuery.Text

/-- The bytes of a text are those of its characters. -/
theorem encode_ofList (cs : List Char) :
  encode (String.ofList cs) = cs.flatMap String.utf8EncodeChar
  := by
  simp [encode, String.toByteArray_ofList, List.utf8Encode, List.data_toByteArray]

theorem encode_eq_flatMap (s : String) :
  encode s = s.toList.flatMap String.utf8EncodeChar
  := by
  rw [← encode_ofList, String.ofList_toList]

/-- A byte of a character that could be an ASCII character is the character. -/
theorem toNat_of_mem_utf8EncodeChar {c : Char} {b : UInt8} (h : b ∈ String.utf8EncodeChar c)
    (hb : b.toNat < 128) :
  c.toNat = b.toNat
  := by
  have hc : c.val.toNat = c.toNat := rfl
  simp only [String.utf8EncodeChar] at h
  split at h
  · simp only [List.mem_singleton] at h
    subst h
    simp only [UInt8.toNat_ofNat']
    omega
  · exfalso
    split at h
    · simp only [List.mem_cons, List.not_mem_nil, or_false] at h
      rcases h with rfl | rfl <;> simp only [UInt8.toNat_ofNat'] at hb <;> omega
    · split at h
      · simp only [List.mem_cons, List.not_mem_nil, or_false] at h
        rcases h with rfl | rfl | rfl <;> simp only [UInt8.toNat_ofNat'] at hb <;> omega
      · simp only [List.mem_cons, List.not_mem_nil, or_false] at h
        rcases h with rfl | rfl | rfl | rfl <;> simp only [UInt8.toNat_ofNat'] at hb <;> omega

/-- An ASCII character is the only one that has its byte. -/
theorem eq_of_mem_utf8EncodeChar {c d : Char} {b : UInt8} (h : b ∈ String.utf8EncodeChar c)
    (hb : b.toNat = d.toNat) (hd : d.toNat < 128) :
  c = d
  := by
  apply Char.toNat_inj.mp
  rw [toNat_of_mem_utf8EncodeChar h (by omega), hb]

/-- A text whose bytes start with those of a character starts with the character. -/
theorem head?_of_utf8EncodeChar_prefix {c : Char} {cs : List Char}
    (h : String.utf8EncodeChar c <+: cs.flatMap String.utf8EncodeChar) :
  cs.head? = some c
  := by
  obtain ⟨rest, hrest⟩ := h
  have hbytes : [c].utf8Encode ++ rest.toByteArray = cs.utf8Encode := by
    rw [List.utf8Encode, List.utf8Encode, List.flatMap_singleton, ← List.toByteArray_append, hrest]
  obtain ⟨more, hmore⟩ := List.isPrefix_of_utf8Encode_append_eq_utf8Encode _ hbytes
  rw [← hmore]
  rfl

end TableQuery.Text
