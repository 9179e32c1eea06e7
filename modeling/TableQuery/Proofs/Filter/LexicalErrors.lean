import TableQuery.Proofs.Filter.Lexing

/-!
# Places of lexical errors

A lexer stops with an error where no token can start: at a character that starts no token of any
text (`StartsNoToken`), or at a quote that is never closed.  The text before that place has exactly
the tokens that the lexer has found before it stopped (`tokenize_error_located`).
-/

namespace TableQuery.Filter

/-- No token of any text starts with the character. -/
def StartsNoToken (c : Char) : Prop :=
  ∀ text ts, tokenize text = .ok ts → ∀ t ∈ ts, t.lexeme.toList.head? ≠ some c

/-- A character at which no text goes on with a token starts no token. -/
theorem startsNoToken_of_shape {c : Char} {fault : LexFault}
    (h : ∀ rest, shape c rest = .error fault) :
  StartsNoToken c
  := by
  intro text ts htext t ht hhead
  obtain ⟨body, rfl, hlexes⟩ := tokenize_eq_ok_iff_lexes.mp htext
  rcases List.mem_append.mp ht with ht | ht
  · obtain ⟨lexeme, rest, hscans⟩ := hlexes.exists_scans t ht
    obtain ⟨hlex, -, hlexeme⟩ := scans_iff.mp hscans
    rw [hlexeme, String.toList_ofList] at hhead
    obtain ⟨ds, rfl⟩ := List.head?_eq_some_iff.mp hhead
    have hshape := shape_of_isLexeme hlex
    rw [h] at hshape
    cases hshape
  · rw [List.mem_singleton.mp ht] at hhead
    cases hhead

/-- The error of a text stands at one of its characters, and the text before this character has
exactly the tokens that were found before the error.  Either the character starts no token, or it is
a quote with no other quote after it. -/
theorem tokenize_error_located {s : String} {e : LexError} (h : tokenize s = .error e) :
  ∃ (before after : String) (c : Char) (ts : List Token),
    s = before ++ String.singleton c ++ after ∧ e.position = before.utf8ByteSize ∧
    e.position < s.utf8ByteSize ∧ String.Pos.Raw.IsValid s ⟨e.position⟩ ∧
    (Lexer.ofString s).items = ts.map .ok ++ [.error e] ∧
    tokenize before = .ok (ts ++ [.endAt e.position]) ∧
    (e.fault = .unexpectedCharacter c ∧ c ∉ [' ', '\t', '\r', '\n'] ∧ StartsNoToken c ∨
      e.fault = .unterminatedString ∧ c = '"' ∧ '"' ∉ after.toList)
  := by
  obtain ⟨cs, c, rest, ts, hs, hlexes, hc, hshape, hposition⟩ := tokenize_eq_error_iff_lexes.mp h
  have htext : s = String.ofList cs ++ String.singleton c ++ String.ofList rest := by
    simp [← String.toList_inj, hs]
  have hstops : Stops (String.ofList cs).utf8ByteSize (c :: rest) (.error e) := by
    rw [← hposition]
    exact .fault hc hshape
  refine ⟨String.ofList cs, String.ofList rest, c, ts, htext, hposition, ?_, ?_,
    hlexes.items_ofString hstops hs, ?_, ?_⟩
  · rw [htext, hposition, String.utf8ByteSize_append, String.utf8ByteSize_append,
      String.utf8ByteSize_singleton]
    have := c.utf8Size_pos
    omega
  · rw [htext, String.append_assoc, hposition]
    exact String.Pos.Raw.isValid_iff_exists_append.mpr ⟨_, _, rfl, rfl⟩
  · -- What the tokens before the error are does not depend on the text from the error on.
    have hbefore : Lexes 0 cs [] ts := hlexes.before (by simp [EndsAlike])
    apply tokenize_eq_ok_iff_lexes.mpr ⟨ts, by rw [hposition], _⟩
    rwa [String.toList_ofList]
  · rcases shape_eq_error hshape with ⟨hfault, hall⟩ | ⟨hfault, hquote, hrest⟩
    · refine .inl ⟨hfault, fun hgap => ?_, startsNoToken_of_shape hall⟩
      rw [isGap_iff_mem.mpr hgap] at hc
      cases hc
    · exact .inr ⟨hfault, hquote, by rwa [String.toList_ofList]⟩

/-- The point after a number that has no fraction starts no token, and a quote may stand alone. -/
theorem tokenize_error_located_of_umlauts :
  (StartsNoToken '.' ∧ ∃ before after, "ß 5." = before ++ String.singleton '.' ++ after ∧
      before.utf8ByteSize = 4 ∧ (tokenize before).isOk = true) ∧
    ∃ before after, "ß \"é" = before ++ String.singleton '"' ++ after ∧
      before.utf8ByteSize = 3 ∧ (tokenize before).isOk = true ∧ '"' ∉ after.toList
  := by
  have hpoint : tokenize "ß 5." = .error ⟨.unexpectedCharacter '.', 4⟩ := by
    decide +kernel
  have hquote : tokenize "ß \"é" = .error ⟨.unterminatedString, 3⟩ := by
    decide +kernel
  constructor
  · obtain ⟨before, after, c, ts, htext, hposition, -, -, -, hbefore, hcause⟩ :=
      tokenize_error_located hpoint
    obtain ⟨hfault, -, hstarts⟩ := hcause.resolve_right (by simp)
    obtain rfl := LexFault.unexpectedCharacter.inj hfault
    exact ⟨hstarts, before, after, htext, hposition.symm, by rw [hbefore]; rfl⟩
  · obtain ⟨before, after, c, ts, htext, hposition, -, -, -, hbefore, hcause⟩ :=
      tokenize_error_located hquote
    obtain ⟨-, rfl, hrest⟩ := hcause.resolve_left (by simp)
    exact ⟨before, after, htext, hposition.symm, by rw [hbefore]; rfl, hrest⟩

end TableQuery.Filter
