import TableQuery.Proofs.Filter.Lexing

/-!
# Texts joined by white space

No token goes on over white space, so the tokens of two texts with white space between them are the
tokens of the first and, moved by its length and that of the white space, those of the second
(`Lexes.join`).  An error of the second text is moved in the same way (`tokenize_joined`).
-/

namespace TableQuery.Filter

/-- The error `n` bytes further on. -/
def LexError.shift (n : Nat) (e : LexError) : LexError :=
  { e with position := e.position + n }

variable {a w : String}

/-- Two texts that consist of tokens, and white space between them. -/
theorem Lexes.join {ds rest : List Char} {ts us : List Token} (hleft : Lexes 0 a.toList [] ts)
    (hright : Lexes 0 ds rest us) (hw : w ≠ "") (hgaps : ∀ c ∈ w.toList, isGap c = true) :
  Lexes 0 (a.toList ++ (w.toList ++ ds)) rest (ts ++ us.map (.shift (a ++ w).utf8ByteSize))
  := by
  obtain ⟨c, more, hcons⟩ := List.exists_cons_of_ne_nil (String.toList_eq_nil_iff.not.mpr hw)
  have hends : EndsAlike [] (w.toList ++ ds ++ rest) := by
    rw [hcons] at hgaps ⊢
    apply endsAlike_of_isGap (hgaps c List.mem_cons_self)
  have hplace : (a ++ w).utf8ByteSize = a.utf8ByteSize + w.toList.length := by
    rw [String.utf8ByteSize_append, ← utf8ByteSize_gaps hgaps, String.ofList_toList]
  have hmoved := hright.shift (a ++ w).utf8ByteSize
  rw [Nat.zero_add] at hmoved
  apply (hleft.before hends).append
  apply Lexes.after_gaps hgaps
  rwa [String.ofList_toList, Nat.zero_add, ← hplace]

/-- The tokens of two texts with white space between them are those of the first text without its
end and those of the second, as many bytes further on as stand before it; an error of the second
text is as many bytes further on. -/
theorem tokenize_joined {ts : List Token} (ha : tokenize a = .ok ts) (hw : w ≠ "")
    (hgaps : ∀ c ∈ w.toList, c ∈ [' ', '\t', '\r', '\n']) (b : String) :
  (∀ us, tokenize b = .ok us →
    tokenize (a ++ w ++ b) = .ok (ts.dropLast ++ us.map (.shift (a ++ w).utf8ByteSize))) ∧
  ∀ e, tokenize b = .error e →
    tokenize (a ++ w ++ b) = .error (e.shift (a ++ w).utf8ByteSize)
  := by
  obtain ⟨body, rfl, hleft⟩ := tokenize_eq_ok_iff_lexes.mp ha
  have hgaps : ∀ c ∈ w.toList, isGap c = true := fun c hc => isGap_iff_mem.mpr (hgaps c hc)
  rw [List.dropLast_concat]
  constructor
  · intro us hb
    obtain ⟨more, rfl, hright⟩ := tokenize_eq_ok_iff_lexes.mp hb
    have hend : (Token.endAt b.utf8ByteSize).shift (a ++ w).utf8ByteSize
        = .endAt (a ++ w ++ b).utf8ByteSize := by
      rw [String.utf8ByteSize_append (t := b), Nat.add_comm]
      rfl
    rw [List.map_append, List.map_singleton, hend, ← List.append_assoc]
    apply tokenize_eq_ok_iff_lexes.mpr ⟨_, rfl, _⟩
    rw [String.toList_append, String.toList_append, List.append_assoc]
    apply hleft.join hright hw hgaps
  · intro e hb
    obtain ⟨cs, c, rest, more, hb, hright, hc, hshape, hposition⟩ :=
      tokenize_eq_error_iff_lexes.mp hb
    have hplace : (e.shift (a ++ w).utf8ByteSize).position
        = (String.ofList (a.toList ++ (w.toList ++ cs))).utf8ByteSize := by
      simp only [LexError.shift, hposition, String.ofList_append, String.ofList_toList,
        String.utf8ByteSize_append]
      omega
    have htext : (a ++ w ++ b).toList = a.toList ++ (w.toList ++ cs) ++ c :: rest := by
      simp only [String.toList_append, hb, List.append_assoc]
    apply tokenize_eq_error_iff_lexes.mpr
    exact ⟨_, c, rest, _, htext, hleft.join hright hw hgaps, hc, hshape, hplace⟩

/-- White space takes an operator apart, and the places after it count the bytes before it. -/
theorem tokenize_joined_of_operator :
  tokenize ("ß>" ++ "\t\n" ++ "=5")
      = .ok [⟨.identifier, "ß", none, 0⟩, ⟨.greater, ">", none, 2⟩, ⟨.equal, "=", none, 5⟩,
        ⟨.number, "5", some (.float (.ofInt 5)), 6⟩, .endAt 7] ∧
    tokenize ("ß>" ++ "\t\n" ++ "=.5") = .error ⟨.unexpectedCharacter '.', 6⟩
  := by
  have hleft : tokenize "ß>"
      = .ok [⟨.identifier, "ß", none, 0⟩, ⟨.greater, ">", none, 2⟩, .endAt 3] := by
    decide +kernel
  have hne : "\t\n" ≠ "" := by decide
  have hgaps : ∀ c ∈ "\t\n".toList, c ∈ [' ', '\t', '\r', '\n'] := by simp
  constructor
  · apply (tokenize_joined hleft hne hgaps "=5").1
      [⟨.equal, "=", none, 0⟩, ⟨.number, "5", some (.float (.ofInt 5)), 1⟩, .endAt 2]
    decide +kernel
  · apply (tokenize_joined hleft hne hgaps "=.5").2 ⟨.unexpectedCharacter '.', 1⟩
    decide +kernel

end TableQuery.Filter
