import TableQuery.Proofs.Filter.Faults
import TableQuery.Proofs.Filter.LexicalErrors
import TableQuery.Proofs.Text.Lines
import TableQuery.Filter.Selection

/-!
# Messages about a filter

The message about a filter shows some texts as they are: a character, the spelling of a token, or
the names of the columns (`FilterError.verbatim`).  The rest of it is on one line, so the line
breaks of a message are those of the texts that it shows (`FilterError.lineBreaks_message`).  Of all
tokens only strings can hold a line break (`IsLexeme.isOneLine`), so a message breaks exactly if it
shows such a string, a character that ends a line, or the name of a column in which a line ends
(`isOneLine_message_iff`).
-/

namespace TableQuery.Filter

open Text

/-! ### What messages show -/

/-- The spelling of a token, if a message about the token shows it. -/
def Token.shown (t : Token) : List String :=
  if t.isEnd then [] else [t.lexeme]

/-- The texts that the message of a lexical error shows as they are. -/
def LexError.verbatim (e : LexError) : List String :=
  match e.fault with
  | .unexpectedCharacter c => [c.toString]
  | .unterminatedString => []
  | .invalidNumber lexeme => [lexeme]

/-- The texts that the message of a parse error shows as they are. -/
def ParseError.verbatim : ParseError → List String
  | empty | tooDeep _ _ => []
  | unknownColumn t available => t.lexeme :: available
  | expectedExpression t | unclosedGroup t | trailingInput t => t.shown

/-- The texts that the message about a filter shows as they are. -/
def FilterError.verbatim : FilterError → List String
  | lex e => e.verbatim
  | parse e => e.verbatim

theorem LexError.lineBreaks_message (e : LexError) :
  lineBreaks e.message = e.verbatim.flatMap lineBreaks
  := by
  obtain ⟨fault, position⟩ := e
  cases fault <;> simp (disch := decide +kernel) only [message, verbatim, lineBreaks_append,
    lineBreaks_toString, IsOneLine.lineBreaks_eq, List.flatMap_cons, List.flatMap_nil,
    List.nil_append, List.append_nil]

theorem Token.lineBreaks_describe (t : Token) :
  lineBreaks t.describe = t.shown.flatMap lineBreaks
  := by
  rw [describe, shown]
  split_ifs <;> simp (disch := decide +kernel) only [lineBreaks_append, IsOneLine.lineBreaks_eq,
    List.flatMap_cons, List.flatMap_nil, List.nil_append, List.append_nil]

theorem Token.eq_lexeme_of_mem_shown {t : Token} {text : String} (h : text ∈ t.shown) :
  text = t.lexeme
  := by
  rw [shown] at h
  split_ifs at h
  · cases h
  · apply List.mem_singleton.mp h

theorem ParseError.lineBreaks_message (e : ParseError) :
  lineBreaks e.message = e.verbatim.flatMap lineBreaks
  := by
  unfold message
  cases e <;> simp (disch := decide +kernel) only [verbatim, lineBreaks_append,
    lineBreaks_toString, lineBreaks_intercalate, Token.lineBreaks_describe,
    IsOneLine.lineBreaks_eq, List.flatMap_cons, List.flatMap_nil, List.nil_append,
    List.append_nil]

/-- The line breaks of a message are those of the texts that it shows. -/
theorem FilterError.lineBreaks_message (e : FilterError) :
  lineBreaks e.message = e.verbatim.flatMap lineBreaks
  := by
  cases e with
  | lex e => apply e.lineBreaks_message
  | parse e => apply e.lineBreaks_message

/-! ### Tokens with line breaks -/

section

variable {cs rest : List Char} {k : Token.Kind}

theorem isLineBreak_of_symbol? (h : symbol? (cs ++ rest) = some (k, cs.length)) :
  ∀ c ∈ cs, isLineBreak c = false
  := by
  have hfirst {c : Char} {after : List Char} {found : Token.Kind × Nat}
      (hc : symbol? (c :: after) = some found) : isLineBreak c = false := by
    apply Bool.eq_false_iff.mpr
    intro hbreak
    have hall : lineEnds.all (fun c => symbol? [c] = none) = true := by decide
    have hmem : c ∈ lineEnds := by simpa [isLineBreak] using hbreak
    have hnone : symbol? [c] = none := of_decide_eq_true (List.all_eq_true.mp hall c hmem)
    rw [(symbol?_eq_none_iff c after).mpr hnone] at hc
    cases hc
  rcases cs with _ | ⟨c, _ | ⟨d, _ | ⟨_, _⟩⟩⟩
  · simp
  · simpa using hfirst h
  · have hd : d = '=' := by
      by_contra hd
      rw [List.cons_append, symbol?_of_head?_ne (by simpa using hd)] at h
      exact absurd (symbol?_length_le h).1 (by simp)
    subst hd
    simpa using ⟨hfirst h, (by decide : isLineBreak '=' = false)⟩
  · exact absurd (symbol?_length_le h).2 (by simp)

theorem isNameChar_of_isWord (h : isWord cs = true) :
  ∀ c ∈ cs, isNameStart c = true ∨ isNameChar c = true
  := by
  cases cs with
  | nil => simp
  | cons c cs =>
    simp only [isWord, Bool.and_eq_true, List.all_eq_true] at h
    obtain ⟨hc, hcs⟩ := h
    exact List.forall_mem_cons.mpr ⟨.inl hc, fun d hd => .inr (hcs d hd)⟩

/-- Only strings hold line breaks. -/
theorem IsLexeme.isOneLine (h : IsLexeme rest k cs) (hk : k ≠ .string) :
  IsOneLine (String.ofList cs)
  := by
  have hdigit {c : Char} (hc : c.isDigit = true) : isLineBreak c = false :=
    isLineBreak_of_any (by decide) hc
  apply isOneLine_ofList.mpr
  cases h with
  | symbol h => apply isLineBreak_of_symbol? h
  | string => exact absurd rfl hk
  | digits h => exact fun c hc => hdigit (h.2 c hc)
  | numeral h =>
    intro c hc
    rw [h.text, List.mem_append, List.mem_cons] at hc
    rcases hc with hc | rfl | hc
    · apply hdigit (h.whole.2 c hc)
    · decide
    · apply hdigit (h.fraction.2 c hc)
  | word h =>
    intro c hc
    rcases isNameChar_of_isWord h c hc with hstart | hname
    · apply isLineBreak_of_any (p := isNameStart) (by decide +kernel) hstart
    · apply isLineBreak_of_any (p := isNameChar) (by decide +kernel) hname

end

/-- A token of a text is on one line, unless it is a string. -/
theorem isOneLine_lexeme {text : String} {tokens : List Token} (h : tokenize text = .ok tokens)
    {t : Token} (ht : t ∈ tokens) (hk : t.kind ≠ .string) :
  IsOneLine t.lexeme
  := by
  obtain ⟨body, rfl, hlexes⟩ := tokenize_eq_ok_iff_lexes.mp h
  rcases List.mem_append.mp ht with ht | ht
  · obtain ⟨cs, rest, hscans⟩ := hlexes.exists_scans t ht
    obtain ⟨hlex, -, hlexeme⟩ := scans_iff.mp hscans
    rw [hlexeme]
    apply hlex.isOneLine hk
  · rw [List.mem_singleton.mp ht]
    rfl

/-! ### Messages with line breaks -/

/-- The message about the filter `text` over some columns shows a line break. -/
inductive FilterError.ShowsLineBreak (text : String) (columns : List String) :
    FilterError → Prop where
  | character {c : Char} {position : Nat} (hc : c ∈ text.toList) (hgap : isGap c = false)
    (h : isLineBreak c = true) :
    ShowsLineBreak text columns (.lex ⟨.unexpectedCharacter c, position⟩)
  | column {t : Token} {name : String} (hname : name ∈ columns) (h : ¬ IsOneLine name) :
    ShowsLineBreak text columns (.parse (.unknownColumn t columns))
  | string {tokens : List Token} {t : Token} {e : ParseError} (htokens : tokenize text = .ok tokens)
    (ht : t ∈ tokens) (hk : t.kind = .string) (h : ¬ IsOneLine t.lexeme)
    (he : e = .unclosedGroup t ∨ e = .trailingInput t) :
    ShowsLineBreak text columns (.parse e)

variable {text : String} {columns : List String} {p : Policy}

theorem FilterError.ShowsLineBreak.not_isOneLine {e : FilterError}
    (h : e.ShowsLineBreak text columns) :
  ¬ IsOneLine e.message
  := by
  rw [isOneLine_iff_of_lineBreaks_eq e.lineBreaks_message]
  intro hall
  cases h with
  | @character c _ _ _ h =>
    have hc := hall c.toString (by simp [verbatim, LexError.verbatim])
    have := isOneLine_iff.mp hc c (by simp)
    rw [h] at this
    cases this
  | @column t name hname h =>
    apply h
    apply hall name
    simp [verbatim, ParseError.verbatim, hname]
  | @string tokens t e htokens ht hk h he =>
    apply h
    apply hall t.lexeme
    have hend : t.isEnd = false := by simp [Token.isEnd, hk]
    rcases he with rfl | rfl <;> simp [verbatim, ParseError.verbatim, Token.shown, hend]

/-- The fault of a text that has no tokens shows a character of it. -/
theorem showsLineBreak_of_tokenize {e : LexError} (h : tokenize text = .error e) {shown : String}
    (hshown : shown ∈ e.verbatim) (hbreak : ¬ IsOneLine shown) :
  (FilterError.lex e).ShowsLineBreak text columns
  := by
  obtain ⟨before, after, c, ts, rfl, -, -, -, -, -, hcause⟩ := tokenize_error_located h
  obtain ⟨fault, position⟩ := e
  rcases hcause with ⟨hfault, hgap, -⟩ | ⟨hfault, -⟩
  · obtain rfl : fault = .unexpectedCharacter c := hfault
    obtain rfl : shown = c.toString := List.mem_singleton.mp hshown
    apply FilterError.ShowsLineBreak.character (by simp)
    · apply Bool.eq_false_iff.mpr
      intro hc
      apply hgap (isGap_iff_mem.mp hc)
    · by_contra hc
      apply hbreak
      apply isOneLine_iff.mpr
      simpa using hc
  · obtain rfl : fault = .unterminatedString := hfault
    cases hshown

/-- A reading fails at a token of its text. -/
theorem exists_blocks_of_tokenize {tokens : List Token} (h : tokenize text = .ok tokens)
    {e : ParseError} (he : parse tokens columns p = .error e) (hne : e ≠ .empty) :
  ∃ t ∈ tokens, ∃ s, (rulesOf columns p).Blocks s t e
  := by
  obtain ⟨ts, rest, s, rfl, hsteps, hblocks⟩ := exists_blocks_of_parse he hne
  obtain ⟨t, more, rfl⟩ := (areRead_of_tokenize h).exists_cons_of_steps hsteps
  exact ⟨t, by simp, s, hblocks t rfl⟩

/-- Where an operand is due a string is one. -/
theorem kind_ne_string_of_stuck {r : Rules} {f : Frame} {outer : List Frame} {t : Token}
    (h : r.advance? (.due f outer) t = .ok none) :
  t.kind ≠ .string
  := by
  intro hk
  simp [Rules.advance?, Rules.operand?, hk, Except.map] at h

theorem showsLineBreak_of_blocks {tokens : List Token} (htokens : tokenize text = .ok tokens)
    {t : Token} (ht : t ∈ tokens) {s : State} {e : ParseError}
    (h : (rulesOf columns p).Blocks s t e) {shown : String} (hshown : shown ∈ e.verbatim)
    (hbreak : ¬ IsOneLine shown) :
  (FilterError.parse e).ShowsLineBreak text columns
  := by
  have hlexeme : t.kind ≠ .string → shown ≠ t.lexeme := by
    rintro hk rfl
    apply hbreak (isOneLine_lexeme htokens ht hk)
  have hstring {e : ParseError} (he : e = .unclosedGroup t ∨ e = .trailingInput t)
      (hmem : shown ∈ t.shown) : (FilterError.parse e).ShowsLineBreak text columns := by
    obtain rfl := Token.eq_lexeme_of_mem_shown hmem
    have hk : t.kind = .string := by
      by_contra hk
      apply hlexeme hk rfl
    apply FilterError.ShowsLineBreak.string htokens ht hk hbreak he
  cases h with
  | fault h =>
    cases Rules.advance?_eq_error_iff.mp h with
    | name hk hname =>
      rcases List.mem_cons.mp hshown with heq | hmem
      · exact absurd heq (hlexeme (by simp [hk]))
      · exact .column hmem hbreak
    | leftParen | operator => cases hshown
  | incomplete h hstop =>
    match s with
    | .due _ _ =>
      cases hstop
      have heq := Token.eq_lexeme_of_mem_shown hshown
      exact absurd heq (hlexeme (kind_ne_string_of_stuck h))
    | .read _ _ (_ :: _) =>
      cases hstop
      exact hstring (.inl rfl) hshown
    | .read _ _ [] => cases hstop
  | trailing h hend => exact hstring (.inr rfl) hshown

/-- The message about a filter that cannot be read is on one line exactly if it shows no line
break. -/
theorem isOneLine_message_iff {e : FilterError} (h : read text columns p = .error e) :
  IsOneLine e.message ↔ ¬ e.ShowsLineBreak text columns
  := by
  constructor
  · intro hline hshows
    apply hshows.not_isOneLine hline
  · intro hnot
    rw [isOneLine_iff_of_lineBreaks_eq e.lineBreaks_message]
    intro shown hshown
    by_contra hbreak
    apply hnot
    cases htokens : tokenize text with
    | error e' =>
      simp only [read, htokens] at h
      cases h
      apply showsLineBreak_of_tokenize htokens hshown hbreak
    | ok tokens =>
      simp only [read, htokens] at h
      cases hparse : parse tokens columns p with
      | ok _ => simp [hparse, Except.mapError] at h
      | error e' =>
        simp only [hparse, Except.mapError] at h
        cases h
        have hne : e' ≠ .empty := by
          rintro rfl
          cases hshown
        obtain ⟨t, ht, s, hblocks⟩ := exists_blocks_of_tokenize htokens hparse hne
        apply showsLineBreak_of_blocks htokens ht hblocks hshown hbreak

end TableQuery.Filter
