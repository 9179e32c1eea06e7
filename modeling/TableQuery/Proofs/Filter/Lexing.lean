import TableQuery.Proofs.Filter.Spelling

/-!
# Texts and their tokens

`Lexes start cs rest ts` says that the text `cs` before `rest` consists of the tokens `ts` and white
space, if `start` bytes stand before it.  The lexer takes these tokens and goes on with `rest`
(`Lexes.items_eq`), and every text is such a beginning and a rest at which the lexer stops, because
the text is over or no token starts there (`exists_lexes`).  So a text has tokens exactly if it
consists of them (`tokenize_eq_ok_iff_lexes`), and it has an error exactly where they cannot go on
(`tokenize_eq_error_iff_lexes`).

Such beginnings can be moved (`Lexes.shift`), put together (`Lexes.append`), and put before another
text that no token of theirs goes on with (`Lexes.before`).
-/

namespace TableQuery.Filter

/-- The text `cs` before `rest` consists of the tokens `ts` and white space, each token at its
place if `start` bytes stand before the text. -/
inductive Lexes : Nat → List Char → List Char → List Token → Prop where
  | gaps {start : Nat} {gaps rest : List Char} (hgaps : ∀ c ∈ gaps, isGap c = true) :
    Lexes start gaps rest []
  | token {start : Nat} {gaps lexeme cs rest : List Char} {t : Token} {ts : List Token}
    (hgaps : ∀ c ∈ gaps, isGap c = true) (ht : Scans lexeme (cs ++ rest) t)
    (hposition : t.position = start + gaps.length) (hs : Lexes t.stop cs rest ts) :
    Lexes start (gaps ++ (lexeme ++ cs)) rest (t :: ts)

/-- The lexer stops before `rest`, at the byte `position`, with the end of the text or an error. -/
inductive Stops (position : Nat) : List Char → Except LexError Token → Prop where
  | ending : Stops position [] (.ok (.endAt position))
  | fault {c : Char} {rest : List Char} {fault : LexFault} (hc : isGap c = false)
    (h : shape c rest = .error fault) :
    Stops position (c :: rest) (.error ⟨fault, position⟩)

section

variable {start position : Nat} {gaps cs ds rest rest' : List Char} {t : Token}
variable {ts us : List Token} {item : Except LexError Token}

theorem Lexes.exists_scans (h : Lexes start cs rest ts) :
  ∀ t ∈ ts, ∃ lexeme rest, Scans lexeme rest t
  := by
  induction h with
  | gaps => simp
  | token _ ht _ _ ih => exact List.forall_mem_cons.mpr ⟨⟨_, _, ht⟩, ih⟩

/-- Of the tokens of which a text consists none is its end. -/
theorem Lexes.isRead (h : Lexes start cs rest ts) :
  ∀ t ∈ ts, t.IsRead
  := by
  intro t ht
  obtain ⟨lexeme, rest, hscans⟩ := h.exists_scans t ht
  apply hscans.isRead

/-! ### Lexers -/

/-- White space before a token is passed over. -/
theorem next?_gaps (hgaps : ∀ c ∈ gaps, isGap c = true) (cs : List Char) (position : Nat) :
  (Lexer.mk (gaps ++ cs) position false).next?
    = (Lexer.mk cs (position + gaps.length) false).next?
  := by
  simp only [Lexer.next?, List.takeWhile_append_of_pos hgaps, List.dropWhile_append_of_pos hgaps,
    List.length_append]
  rw [Nat.add_assoc]

/-- A token at the front of a text is taken. -/
theorem Scans.next?_eq (h : Scans cs rest t) :
  (Lexer.mk (cs ++ rest) t.position false).next? = some (.ok t, ⟨rest, t.stop, false⟩)
  := by
  obtain ⟨c, ds, rfl, hgap, hscan⟩ := h
  simp only [Lexer.next?, List.cons_append, List.takeWhile_cons, List.dropWhile_cons, hgap,
    List.length_nil, Nat.add_zero, hscan t.position, Bool.false_eq_true, if_false]
  rw [← List.cons_append, List.drop_left]

theorem Scans.stop_eq (h : Scans cs rest t) :
  t.stop = t.position + (String.ofList cs).utf8ByteSize
  := by
  obtain ⟨-, -, hlexeme⟩ := scans_iff.mp h
  rw [Token.stop, hlexeme]

theorem Lexer.items_congr {l m : Lexer} (h : l.next? = m.next?) :
  l.items = m.items
  := by
  cases hm : m.next? with
  | none => rw [items_of_finished (next?_eq_none_iff.mp (h.trans hm)),
      items_of_finished (next?_eq_none_iff.mp hm)]
  | some next => rw [items_of_next? (h.trans hm), items_of_next? hm]

/-- White space has one byte a character. -/
theorem utf8ByteSize_gaps (hgaps : ∀ c ∈ gaps, isGap c = true) :
  (String.ofList gaps).utf8ByteSize = gaps.length
  := by
  induction gaps with
  | nil => rfl
  | cons c gaps ih =>
    obtain ⟨hc, hgaps⟩ := List.forall_mem_cons.mp hgaps
    have hall : [' ', '\t', '\r', '\n'].all (fun c => c.utf8Size = 1) = true := rfl
    have hsize : c.utf8Size = 1 :=
      of_decide_eq_true (List.all_eq_true.mp hall c (isGap_iff_mem.mp hc))
    rw [String.ofList_cons, String.utf8ByteSize_append, String.utf8ByteSize_singleton, hsize,
      ih hgaps, List.length_cons, Nat.add_comm]

/-- Where a text ends that starts with white space and a token. -/
theorem Scans.stop_add (ht : Scans ds rest t) (hgaps : ∀ c ∈ gaps, isGap c = true)
    (hposition : t.position = start + gaps.length) (cs : List Char) :
  t.stop + (String.ofList cs).utf8ByteSize
    = start + (String.ofList (gaps ++ (ds ++ cs))).utf8ByteSize
  := by
  rw [ht.stop_eq, hposition, String.ofList_append, String.ofList_append,
    String.utf8ByteSize_append, String.utf8ByteSize_append, utf8ByteSize_gaps hgaps]
  omega

/-- The lexer takes the tokens of the beginning of a text, and goes on with the rest. -/
theorem Lexes.items_eq (h : Lexes start cs rest ts) :
  (Lexer.mk (cs ++ rest) start false).items
    = ts.map .ok ++ (Lexer.mk rest (start + (String.ofList cs).utf8ByteSize) false).items
  := by
  induction h with
  | gaps hgaps =>
    rw [Lexer.items_congr (next?_gaps hgaps _ _), utf8ByteSize_gaps hgaps]
    rfl
  | @token start gaps lexeme cs rest t ts hgaps ht hposition _ ih =>
    rw [List.append_assoc, List.append_assoc, Lexer.items_congr (next?_gaps hgaps _ _),
      ← hposition, Lexer.items_of_next? ht.next?_eq, ih, ht.stop_add hgaps hposition cs]
    rfl

theorem Stops.items_eq (h : Stops position rest item) :
  (Lexer.mk rest position false).items = [item]
  := by
  have hlast {l m : Lexer} (hnext : l.next? = some (item, m)) (hm : m.finished = true) :
      l.items = [item] := by
    rw [Lexer.items_of_next? hnext, Lexer.items_of_finished hm]
  cases h with
  | ending => exact hlast (m := ⟨[], position, true⟩) rfl rfl
  | @fault c rest fault hc h =>
    apply hlast (m := ⟨c :: rest, position, true⟩) _ rfl
    simp [Lexer.next?, hc, scan, h]

/-- Every text is a beginning that consists of tokens, and a rest before which the lexer stops. -/
theorem exists_lexes (start : Nat) (s : List Char) :
  ∃ cs rest ts item, s = cs ++ rest ∧ Lexes start cs rest ts ∧
    Stops (start + (String.ofList cs).utf8ByteSize) rest item
  := by
  induction hlength : s.length using Nat.strongRecOn generalizing start s with
  | ind n ih =>
    obtain ⟨gaps, after, rfl, hgaps, hafter⟩ := exists_span isGap s
    cases after with
    | nil => exact ⟨gaps, [], [], _, rfl, .gaps hgaps, .ending⟩
    | cons c rest =>
      cases hshape : shape c rest with
      | error fault => exact ⟨gaps, c :: rest, [], _, rfl, .gaps hgaps, .fault (hafter c rfl) hshape⟩
      | ok found =>
        obtain ⟨ds, tail, rfl, -, hlex⟩ := exists_isLexeme_of_shape hshape
        obtain ⟨literal?, hliteral⟩ := exists_literalOf hlex
        have ht : Scans (c :: ds) tail
            ⟨found.1, String.ofList (c :: ds), literal?, start + gaps.length⟩ :=
          scans_iff.mpr ⟨hlex, hliteral, rfl⟩
        obtain ⟨cs, rest, ts, item, rfl, hlexes, hstops⟩ := ih tail.length (by simp at hlength; omega)
          (Token.stop ⟨found.1, String.ofList (c :: ds), literal?, start + gaps.length⟩) tail rfl
        refine ⟨gaps ++ (c :: ds ++ cs), rest, _, item, by simp, .token hgaps ht rfl hlexes, ?_⟩
        rwa [ht.stop_add hgaps rfl] at hstops

/-! ### Texts -/

theorem mapM_concat (ts : List Token) (item : Except LexError Token) :
  (ts.map .ok ++ [item] : List (Except LexError Token)).mapM id = item.map fun t => ts ++ [t]
  := by
  induction ts with
  | nil => cases item <;> rfl
  | cons t ts ih =>
    rw [List.map_cons, List.cons_append, List.mapM_cons, ih]
    cases item <;> rfl

variable {s : String}

/-- The run of the lexer over a text that consists of tokens up to where the lexer stops. -/
theorem Lexes.items_ofString (h : Lexes 0 cs rest ts)
    (hstops : Stops (String.ofList cs).utf8ByteSize rest item) (hs : s.toList = cs ++ rest) :
  (Lexer.ofString s).items = ts.map .ok ++ [item]
  := by
  rw [Lexer.ofString, hs, h.items_eq, Nat.zero_add, hstops.items_eq]

theorem Lexes.tokenize_eq (h : Lexes 0 cs rest ts)
    (hstops : Stops (String.ofList cs).utf8ByteSize rest item) (hs : s.toList = cs ++ rest) :
  tokenize s = item.map fun t => ts ++ [t]
  := by
  rw [tokenize, h.items_ofString hstops hs, mapM_concat]

/-- A text has the tokens of which it consists, and its end. -/
theorem tokenize_eq_ok_iff_lexes :
  tokenize s = .ok ts ↔ ∃ body, ts = body ++ [.endAt s.utf8ByteSize] ∧ Lexes 0 s.toList [] body
  := by
  constructor
  · intro h
    obtain ⟨cs, rest, body, item, hs, hlexes, hstops⟩ := exists_lexes 0 s.toList
    rw [Nat.zero_add] at hstops
    rw [hlexes.tokenize_eq hstops hs] at h
    cases hstops with
    | ending =>
      obtain rfl := Except.ok.inj h
      rw [List.append_nil] at hs
      subst hs
      rw [String.ofList_toList]
      exact ⟨body, rfl, hlexes⟩
    | fault => cases h
  · rintro ⟨body, rfl, hlexes⟩
    have hs : s.toList = s.toList ++ [] := (List.append_nil _).symm
    rw [hlexes.tokenize_eq .ending hs, String.ofList_toList]
    rfl

/-- A text has an error where the tokens at its beginning cannot go on. -/
theorem tokenize_eq_error_iff_lexes {e : LexError} :
  tokenize s = .error e ↔ ∃ cs c rest ts, s.toList = cs ++ c :: rest ∧ Lexes 0 cs (c :: rest) ts ∧
    isGap c = false ∧ shape c rest = .error e.fault ∧ e.position = (String.ofList cs).utf8ByteSize
  := by
  constructor
  · intro h
    obtain ⟨cs, rest, ts, item, hs, hlexes, hstops⟩ := exists_lexes 0 s.toList
    rw [Nat.zero_add] at hstops
    rw [hlexes.tokenize_eq hstops hs] at h
    cases hstops with
    | ending => cases h
    | @fault c rest fault hc hshape =>
      obtain rfl := Except.error.inj h
      exact ⟨cs, c, rest, ts, hs, hlexes, hc, hshape, rfl⟩
  · rintro ⟨cs, c, rest, ts, hs, hlexes, hc, hshape, hposition⟩
    rw [hlexes.tokenize_eq (.fault hc hshape) hs, ← hposition]
    rfl

/-! ### Moving and joining -/

/-- White space before a text that consists of tokens. -/
theorem Lexes.after_gaps (hgaps : ∀ c ∈ gaps, isGap c = true)
    (h : Lexes (start + gaps.length) cs rest ts) :
  Lexes start (gaps ++ cs) rest ts
  := by
  have hall {more : List Char} (hmore : ∀ c ∈ more, isGap c = true) :
      ∀ c ∈ gaps ++ more, isGap c = true := by
    intro c hc
    rcases List.mem_append.mp hc with hc | hc
    · apply hgaps c hc
    · apply hmore c hc
  cases h with
  | gaps hmore => exact .gaps (hall hmore)
  | token hmore ht hposition hs =>
    rw [← List.append_assoc]
    apply Lexes.token (hall hmore) ht _ hs
    rw [hposition, List.length_append, Nat.add_assoc]

/-- Two texts that consist of tokens, one after the other. -/
theorem Lexes.append (h : Lexes start cs (ds ++ rest) ts)
    (h' : Lexes (start + (String.ofList cs).utf8ByteSize) ds rest us) :
  Lexes start (cs ++ ds) rest (ts ++ us)
  := by
  generalize hmiddle : ds ++ rest = middle at h
  induction h with
  | gaps hgaps =>
    rw [utf8ByteSize_gaps hgaps] at h'
    apply h'.after_gaps hgaps
  | @token start gaps lexeme cs middle t ts hgaps ht hposition hs ih =>
    rw [← ht.stop_add hgaps hposition] at h'
    rw [List.append_assoc, List.append_assoc]
    apply Lexes.token hgaps _ hposition (ih h' hmiddle)
    rwa [List.append_assoc, hmiddle]

/-- The token `n` bytes further on. -/
def Token.shift (n : Nat) (t : Token) : Token :=
  { t with position := t.position + n }

/-- Tokens stand in a text in the same way wherever the text stands. -/
theorem Lexes.shift (h : Lexes start cs rest ts) (n : Nat) :
  Lexes (start + n) cs rest (ts.map (.shift n))
  := by
  induction h with
  | gaps hgaps => exact .gaps hgaps
  | @token start gaps lexeme cs rest t ts hgaps ht hposition hs ih =>
    have hplace : (t.shift n).position = start + n + gaps.length := by
      rw [Token.shift, hposition, Nat.add_right_comm]
    have hstop : (t.shift n).stop = t.stop + n := Nat.add_right_comm _ _ _
    rw [← hstop] at ih
    exact .token hgaps (scans_iff.mpr (scans_iff.mp ht)) hplace ih

/-- A text that consists of tokens does not start with a point. -/
theorem Lexes.head?_ne (h : Lexes start cs rest ts) :
  cs.head? ≠ some '.'
  := by
  have hgap {gaps : List Char} (hgaps : ∀ c ∈ gaps, isGap c = true) : gaps.head? ≠ some '.' := by
    intro hhead
    cases hgaps '.' (List.mem_of_mem_head? hhead)
  cases h with
  | gaps hgaps => apply hgap hgaps
  | token hgaps ht _ _ =>
    obtain ⟨hlex, -⟩ := scans_iff.mp ht
    obtain ⟨c, ds, rfl⟩ := List.exists_cons_of_ne_nil hlex.ne_nil
    rw [List.head?_append]
    intro hhead
    rcases Option.or_eq_some_iff.mp hhead with hhead | ⟨-, hhead⟩
    · apply hgap hgaps hhead
    · apply hlex.head.2 (Option.some.inj hhead)

/-- What follows a text that consists of tokens can be put in the place of something else. -/
theorem Lexes.before (h : Lexes start cs rest ts) (hrest : EndsAlike rest rest') :
  Lexes start cs rest' ts
  := by
  induction h with
  | gaps hgaps => exact .gaps hgaps
  | @token start gaps lexeme cs rest t ts hgaps ht hposition hs ih =>
    refine .token hgaps (ht.before ?_) hposition (ih hrest)
    -- Only the last token is next to the text that is replaced.
    cases cs with
    | nil => apply hrest
    | cons c cs =>
      intro d hd
      obtain rfl := Option.some.inj hd
      exact ⟨fun hpoint => hs.head?_ne (congrArg some hpoint), .inl rfl⟩

end

end TableQuery.Filter
