import Mathlib.Logic.Function.Iterate
import TableQuery.Proofs.Filter.Lexing

/-!
# The layout of tokens

A text is made up of its tokens and the white space between them, and every token says at which byte
it stands (`Spaced`).  So the token is found there (`Spaced.standsIn`), and the tokens follow each
other without an overlap (`Spaced.pairwise`).

A lexer can be asked for items one after the other.  Its answers are its items, and then nothing
(`Lexer.answer?_eq`); the last item, and no other, is the end of the text or an error.
-/

namespace TableQuery.Filter

/-! ### Texts -/

/-- White space and the tokens `ts` in turn make up a text, each token at its place if `start` bytes
stand before the text. -/
inductive Spaced : Nat → String → List Token → Prop where
  | nil (start : Nat) : Spaced start "" []
  | cons {start : Nat} {gap rest : String} {t : Token} {ts : List Token}
    (hgap : ∀ c ∈ gap.toList, c ∈ [' ', '\t', '\r', '\n'])
    (hposition : t.position = start + gap.utf8ByteSize) (hs : Spaced t.stop rest ts) :
    Spaced start (gap ++ t.lexeme ++ rest) (t :: ts)

/-- The lexeme of the token stands in the text after as many bytes as the token says. -/
def Token.StandsIn (t : Token) (s : String) : Prop :=
  ∃ before after, s = before ++ t.lexeme ++ after ∧ t.position = before.utf8ByteSize

/-- A token stands at the boundary of a character. -/
theorem Token.StandsIn.isValid {t : Token} {s : String} (h : t.StandsIn s) :
  String.Pos.Raw.IsValid s ⟨t.position⟩
  := by
  obtain ⟨before, after, rfl, hposition⟩ := h
  rw [String.append_assoc, hposition]
  apply String.Pos.Raw.isValid_iff_exists_append.mpr ⟨before, t.lexeme ++ after, rfl, rfl⟩

section

variable {start : Nat} {cs : List Char} {s : String} {t : Token} {ts : List Token}

/-- A text that consists of tokens is made up of them, white space and the end. -/
theorem Lexes.spaced (h : Lexes start cs [] ts) :
  Spaced start (String.ofList cs) (ts ++ [.endAt (start + (String.ofList cs).utf8ByteSize)])
  := by
  generalize hrest : [] = rest at h
  have hspaces {gaps : List Char} (hgaps : ∀ c ∈ gaps, isGap c = true) :
      ∀ c ∈ (String.ofList gaps).toList, c ∈ [' ', '\t', '\r', '\n'] := by
    rw [String.toList_ofList]
    exact fun c hc => isGap_iff_mem.mp (hgaps c hc)
  induction h with
  | @gaps start gaps rest hgaps =>
    have hend : String.ofList gaps = String.ofList gaps ++ (Token.endAt
        (start + (String.ofList gaps).utf8ByteSize)).lexeme ++ "" := by
      simp [Token.endAt]
    rw [List.nil_append]
    nth_rewrite 1 [hend]
    exact .cons (hspaces hgaps) rfl (.nil _)
  | @token start gaps lexeme cs rest t ts hgaps ht hposition _ ih =>
    have ih := ih hrest
    rw [ht.stop_add hgaps hposition] at ih
    obtain ⟨-, -, hlexeme⟩ := scans_iff.mp ht
    rw [← utf8ByteSize_gaps hgaps] at hposition
    have htext : String.ofList (gaps ++ (lexeme ++ cs))
        = String.ofList gaps ++ t.lexeme ++ String.ofList cs := by
      rw [hlexeme, String.ofList_append, String.ofList_append, String.append_assoc]
    rw [List.cons_append]
    nth_rewrite 1 [htext]
    exact .cons (hspaces hgaps) hposition ih

/-- The tokens of which a text is made up stand in it. -/
theorem Spaced.standsIn (h : Spaced start s ts) (before : String)
    (hbefore : before.utf8ByteSize = start) :
  ∀ t ∈ ts, t.StandsIn (before ++ s)
  := by
  induction h generalizing before with
  | nil => simp
  | @cons start gap rest t ts hgap hposition _ ih =>
    have hplace : t.position = (before ++ gap).utf8ByteSize := by
      rw [hposition, String.utf8ByteSize_append, hbefore]
    have hstop : (before ++ gap ++ t.lexeme).utf8ByteSize = t.stop := by
      rw [String.utf8ByteSize_append, ← hplace]
      rfl
    have hrest := ih _ hstop
    simp only [String.append_assoc] at hrest ⊢
    exact List.forall_mem_cons.mpr ⟨⟨before ++ gap, rest, by simp only [String.append_assoc], hplace⟩,
      hrest⟩

/-- Each of the tokens of which a text is made up ends before the next one. -/
theorem Spaced.pairwise (h : Spaced start s ts) :
  ts.Pairwise fun t u => t.stop ≤ u.position
  := by
  have hfirst {start : Nat} {s : String} {ts : List Token} (h : Spaced start s ts) :
      ∀ t ∈ ts, start ≤ t.position := by
    induction h with
    | nil => simp
    | @cons start gap rest t ts _ hposition _ ih =>
      have hstop : t.position ≤ t.stop := Nat.le_add_right _ _
      refine List.forall_mem_cons.mpr ⟨by omega, fun u hu => ?_⟩
      have := ih u hu
      omega
  induction h with
  | nil => exact .nil
  | cons _ _ hs ih => exact .cons (hfirst hs) ih

end

/-! ### Items -/

namespace Lexer

/-- The lexer once its next item has been asked for. -/
def step (l : Lexer) : Lexer :=
  (l.next?.map Prod.snd).getD l

/-- The answer when a lexer has been asked for `n` items and is asked for one more. -/
def answer? (l : Lexer) (n : Nat) : Option (Except LexError Token) :=
  (step^[n] l).next?.map Prod.fst

/-- The answers of a lexer are its items, and then nothing. -/
theorem answer?_eq (l : Lexer) (n : Nat) :
  l.answer? n = l.items[n]?
  := by
  induction n generalizing l with
  | zero =>
    rw [answer?, Function.iterate_zero_apply]
    cases hnext : l.next? with
    | none => rw [items_of_finished (next?_eq_none_iff.mp hnext)]; rfl
    | some next => rw [items_of_next? hnext]; rfl
  | succ n ih =>
    have hstep : l.answer? (n + 1) = l.step.answer? n := by
      rw [answer?, Function.iterate_succ_apply, answer?]
    rw [hstep, ih]
    cases hnext : l.next? with
    | none =>
      have hitems := items_of_finished (next?_eq_none_iff.mp hnext)
      simp [step, hnext, hitems]
    | some next => simp [step, hnext, items_of_next? hnext]

end Lexer

/-- The items of a text are tokens, and at last its end or an error. -/
theorem exists_items_ofString (s : String) :
  ∃ (ts : List Token) (last : Except LexError Token),
    (Lexer.ofString s).items = ts.map .ok ++ [last] ∧ ∀ t ∈ ts, t.isEnd = false
  := by
  obtain ⟨cs, rest, ts, last, hs, hlexes, hstops⟩ := exists_lexes 0 s.toList
  rw [Nat.zero_add] at hstops
  exact ⟨ts, last, hlexes.items_ofString hstops hs, fun t ht => (hlexes.isRead t ht).notEnd⟩

/-- Lexing loses nothing of a text: white space and the lexemes of the tokens in turn make it up,
every token stands at its place, the tokens do not overlap, and the last of them alone is the end.
After the end or an error a lexer has no more items. -/
theorem tokenize_layout (s : String) :
  (∀ ts, tokenize s = .ok ts →
    Spaced 0 s ts ∧
    (∀ t ∈ ts, t.StandsIn s ∧ String.Pos.Raw.IsValid s ⟨t.position⟩) ∧
    (∀ t ∈ ts, t.isEnd = false → t.position < t.stop) ∧
    (ts.Pairwise fun t u => t.position < u.position ∧ t.stop ≤ u.position) ∧
    ∃ body, ts = body ++ [.endAt s.utf8ByteSize] ∧ ∀ t ∈ body, t.isEnd = false) ∧
  ∀ i item, (Lexer.ofString s).answer? i = some item → (∀ t, item = .ok t → t.isEnd = true) →
    ∀ j, i < j → (Lexer.ofString s).answer? j = none
  := by
  constructor
  · intro ts h
    obtain ⟨body, rfl, hlexes⟩ := tokenize_eq_ok_iff_lexes.mp h
    have hspaced : Spaced 0 s (body ++ [.endAt s.utf8ByteSize]) := by
      simpa using hlexes.spaced
    refine ⟨hspaced, fun t ht => ?_, fun t ht hend => ?_, ?_, body, rfl, fun t ht => ?_⟩
    · have hstands : t.StandsIn s := by
        simpa using hspaced.standsIn "" rfl t ht
      exact ⟨hstands, hstands.isValid⟩
    · rcases List.mem_append.mp ht with ht | ht
      · apply (hlexes.isRead t ht).position_lt_stop
      · rw [List.mem_singleton.mp ht] at hend
        cases hend
    · apply (areRead_of_tokenize h).positions.and hspaced.pairwise
    · apply (hlexes.isRead t ht).notEnd
  · intro i item hi hlast j hij
    obtain ⟨ts, last, hitems, hts⟩ := exists_items_ofString s
    rw [Lexer.answer?_eq, hitems] at hi ⊢
    rcases Nat.lt_or_ge i ts.length with hlt | hge
    · -- An item before the last one is a token, and not the end.
      rw [List.getElem?_append_left (by simpa using hlt), List.getElem?_map,
        List.getElem?_eq_getElem hlt] at hi
      have hend := hlast ts[i] (Option.some.inj hi).symm
      rw [hts _ (List.getElem_mem hlt)] at hend
      cases hend
    · apply List.getElem?_eq_none
      rw [List.length_append, List.length_map, List.length_singleton]
      omega

/-- A string with white space in it is one token, and the places count bytes. -/
theorem tokenize_layout_of_umlauts :
  Spaced 0 "größe>\t\"ß =\" "
      [⟨.identifier, "größe", none, 0⟩, ⟨.greater, ">", none, 7⟩,
        ⟨.string, "\"ß =\"", some (.text "ß ="), 9⟩, .endAt 16] ∧
    ∀ j, 3 < j → (Lexer.ofString "größe>\t\"ß =\" ").answer? j = none
  := by
  obtain ⟨htokens, hitems⟩ := tokenize_layout "größe>\t\"ß =\" "
  refine ⟨(htokens _ (by decide +kernel)).1, hitems 3 (.ok (.endAt 16)) (by decide +kernel) ?_⟩
  intro t ht
  obtain rfl := Except.ok.inj ht
  rfl

end TableQuery.Filter
