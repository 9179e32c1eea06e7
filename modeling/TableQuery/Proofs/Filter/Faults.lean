import TableQuery.Proofs.Filter.Acceptance

/-!
# Where a filter is at fault

A reading in full that fails gets to the token of its error, and that token is the first that
is out of place.  Whatever follows it, the reading fails there (`Rules.Blocks`).  The state
before it can still be completed, as every state can: an operand is given where one is due, and
the open groups are closed (`Rules.exists_steps_to_complete`).
-/

namespace TableQuery.Filter

variable {columns : List String} {p : Policy} {tokens : List Token}

namespace Rules

variable {r : Rules} {s : State} {t : Token}

/-! ### The token of an error -/

/-- A reading in full that is in the state `s` before the token `t` ends there, in an error. -/
inductive Blocks (r : Rules) (s : State) (t : Token) : ParseError → Prop where
  | fault {e : ParseError} (h : r.advance? s t = .error e) : Blocks r s t e
  | incomplete {e : ParseError} (h : r.advance? s t = .ok none) (hs : stop s t = .error e) :
    Blocks r s t e
  | trailing (h : r.advance? s t = .ok none) (ht : t.isEnd = false) :
    Blocks r s t (.trailingInput t)

theorem token?_of_advance?_error {e : ParseError} (h : r.advance? s t = .error e) :
  e.token? = some t
  := by
  cases advance?_eq_error_iff.mp h with
  | name | leftParen | operator => rfl

theorem token?_of_stop_error {e : ParseError} (h : stop s t = .error e) :
  e.token? = some t
  := by
  match s with
  | .due _ _ | .read _ _ (_ :: _) =>
    cases h
    rfl
  | .read _ _ [] => cases h

/-- The error is found at the token that blocks the reading. -/
theorem Blocks.token?_eq {e : ParseError} (h : Blocks r s t e) :
  e.token? = some t
  := by
  cases h with
  | fault h => apply token?_of_advance?_error h
  | incomplete _ hs => apply token?_of_stop_error hs
  | trailing => rfl

/-! ### Completions -/

/-- The groups that are open after a comparison can be closed. -/
theorem exists_steps_to_close (e : Expr) (f : Frame) (outer : List Frame) :
  ∃ more c g, r.Steps (.read e f outer) more (.read c g [])
  := by
  induction outer generalizing e f with
  | nil => exact ⟨[], e, f, .nil _⟩
  | cons g outer ih =>
    obtain ⟨more, c, g', hsteps⟩ := ih (g.attach (.group (f.expression e))) g
    let paren : Token := ⟨.rightParen, ")", none, 0⟩
    have hparen : paren.kind = .rightParen := rfl
    exact ⟨paren :: more, c, g', .cons (.rightParen hparen) hsteps⟩

/-- Every state can be completed. -/
theorem exists_steps_to_complete (s : State) :
  ∃ more c f, r.Steps s more (.read c f [])
  := by
  cases s with
  | due f outer =>
    let null : Token := ⟨.nullWord, "null", none, 0⟩
    have hnull : null.kind = .nullWord := rfl
    have hmove : r.Moves (.due f outer) null (.read (f.attach (.literal .null)) f outer) :=
      .operand (.nullWord hnull) (namesIn_singleton fun hk => nomatch hk)
    obtain ⟨more, c, g, hsteps⟩ :=
      exists_steps_to_close (r := r) (f.attach (.literal .null)) f outer
    exact ⟨null :: more, c, g, .cons hmove hsteps⟩
  | read e f outer => apply exists_steps_to_close e f outer

end Rules

/-! ### Readings that fail -/

/-- What a reading in full has read before an error can be completed to a filter. -/
theorem exists_parse_of_steps {ts : List Token} {s : State}
    (h : (rulesOf columns p).Steps .start ts s) :
  ∃ more e, parse (ts ++ more) columns p = .ok e
  := by
  obtain ⟨more, c, f, hmore⟩ := Rules.exists_steps_to_complete (r := rulesOf columns p) s
  have hend : ∀ t ∈ [Token.endAt 0].head?, t.isEnd = true := by simp
  have hparse := parse_of_steps (h.append hmore) hend
  rw [List.append_assoc] at hparse
  exact ⟨more ++ [.endAt 0], f.expression c, hparse⟩

/-- A token that blocks a reading in full does so whatever follows it. -/
theorem parse_ne_ok_of_blocks {ts : List Token} {t : Token} {s : State} {err : ParseError}
    (h : (rulesOf columns p).Steps .start ts s) (hblocks : (rulesOf columns p).Blocks s t err)
    (hp : p.mode = .strict) (more : List Token) (e : Expr) :
  parse (ts ++ t :: more) columns p ≠ .ok e
  := by
  intro hparse
  by_cases hempty : ((ts ++ t :: more).head?.getD (endOf (ts ++ t :: more))).isEnd = true
  · rw [parse, if_pos hempty] at hparse
    cases hparse
  · rw [parse_eq (Bool.eq_false_iff.mpr hempty), Rules.run_of_steps h, Rules.run] at hparse
    cases hblocks with
    | fault hadvance =>
      rw [hadvance] at hparse
      cases hparse
    | incomplete hadvance hstop =>
      rw [hadvance] at hparse
      simp only [hstop, Except.map] at hparse
      cases hparse
    | trailing hadvance ht =>
      rw [hadvance] at hparse
      cases hstop : Rules.stop s t with
      | error e => simp [hstop, Except.map] at hparse
      | ok e => simp [hstop, Except.map, ht, Policy.allowsTrailing, hp] at hparse

/-- A reading that has got to a state fails at a token that blocks it after that, or because the
tokens end. -/
theorem exists_blocks_of_steps {ts more : List Token} {s : State} {err : ParseError}
    (hnonempty : ((ts ++ more).head?.getD (endOf (ts ++ more))).isEnd = false)
    (hsteps : (rulesOf columns p).Steps .start ts s)
    (h : parse (ts ++ more) columns p = .error err) :
  ∃ us rest s', more = us ++ rest ∧ (rulesOf columns p).Steps s us s' ∧
    ∀ t ∈ rest.head?, (rulesOf columns p).Blocks s' t err
  := by
  rw [parse_eq hnonempty, Rules.run_of_steps hsteps] at h
  obtain ⟨us, rest, s', hmore, hsteps', hends⟩ :=
    Rules.exists_steps_of_run (rulesOf columns p) (endOf (ts ++ more)) s more
  refine ⟨us, rest, s', hmore, hsteps', ?_⟩
  generalize (rulesOf columns p).run (endOf (ts ++ more)) s more = result at h hends
  cases hends with
  | atEnd => simp
  | @stuck t rest hadvance =>
    intro u hu
    obtain rfl : t = u := Option.some.inj hu
    cases hstop : Rules.stop s' t with
    | error e =>
      rw [hstop] at h
      cases h
      exact .incomplete hadvance hstop
    | ok e =>
      simp only [hstop, Except.map] at h
      split at h
      · cases h
      · next hend =>
        cases h
        have ht : t.isEnd = false := by
          simp only [Bool.or_eq_true, not_or] at hend
          apply Bool.eq_false_iff.mpr hend.1
        exact .trailing hadvance ht
  | @fault t rest e hadvance =>
    intro u hu
    obtain rfl : t = u := Option.some.inj hu
    cases h
    exact .fault hadvance

/-- A reading fails at a token that blocks it, or because the tokens end. -/
theorem exists_blocks_of_parse {err : ParseError} (h : parse tokens columns p = .error err)
    (hne : err ≠ .empty) :
  ∃ ts rest s, tokens = ts ++ rest ∧ (rulesOf columns p).Steps .start ts s ∧
    ∀ t ∈ rest.head?, (rulesOf columns p).Blocks s t err
  := by
  by_cases hempty : (tokens.head?.getD (endOf tokens)).isEnd = true
  · rw [parse, if_pos hempty] at h
    cases h
    contradiction
  · have hnonempty := Bool.eq_false_iff.mpr hempty
    rw [← List.nil_append tokens] at hnonempty h
    exact exists_blocks_of_steps hnonempty (.nil .start) h

theorem AreRead.index_unique {start : Nat} (h : AreRead start tokens) {i j : Nat} {t u : Token}
    (hi : tokens[i]? = some t) (hj : tokens[j]? = some u) (hposition : t.position = u.position) :
  i = j
  := by
  obtain ⟨hilt, rfl⟩ := List.getElem?_eq_some_iff.mp hi
  obtain ⟨hjlt, rfl⟩ := List.getElem?_eq_some_iff.mp hj
  have hpairs := List.pairwise_iff_getElem.mp h.positions
  rcases Nat.lt_trichotomy i j with hlt | heq | hgt
  · exact absurd hposition (Nat.ne_of_lt (hpairs i j hilt hjlt hlt))
  · apply heq
  · exact absurd hposition.symm (Nat.ne_of_lt (hpairs j i hjlt hilt hgt))

/-- The tokens of a text do not end before a state that a reading gets to, as their last one is the
end and no state moves over it. -/
theorem AreRead.exists_cons_of_steps {start : Nat} {ts rest : List Token} {r : Rules} {s s' : State}
    (h : AreRead start (ts ++ rest)) (hsteps : r.Steps s ts s') :
  ∃ t more, rest = t :: more
  := by
  apply List.exists_cons_of_ne_nil
  rintro rfl
  obtain ⟨body, stop, htokens, -⟩ := h.ending
  rw [List.append_nil] at htokens
  have hend := hsteps.isEnd_eq_false (.endAt stop) (by simp [htokens])
  cases hend

/-- A text that is read in full and fails, but is not empty, fails at the position of one of
its tokens, and that is the first offending one: the tokens before it can be completed to a
filter, and with it no list of tokens is one. -/
theorem parse_error_at_first_offending {s : String} (h : tokenize s = .ok tokens)
    (columns : List String) (hp : p.mode = .strict) {err : ParseError}
    (herr : parse tokens columns p = .error err) (hne : err ≠ .empty) :
  (∃ (i : Nat) (t : Token), tokens[i]? = some t ∧ err.position? = some t.position) ∧
    ∀ (i : Nat) (t : Token), tokens[i]? = some t → err.position? = some t.position →
      (∃ more e, parse (tokens.take i ++ more) columns p = .ok e) ∧
      ∀ more e, parse (tokens.take (i + 1) ++ more) columns p ≠ .ok e
  := by
  have hread := areRead_of_tokenize h
  obtain ⟨ts, rest, s, rfl, hsteps, hblocks⟩ := exists_blocks_of_parse herr hne
  cases rest with
  | nil =>
    -- The end of the text is among the tokens, and no state moves over it.
    obtain ⟨body, stop, htokens, -⟩ := hread.ending
    rw [List.append_nil] at htokens
    have hmem : Token.endAt stop ∈ ts := by simp [htokens]
    have := hsteps.isEnd_eq_false _ hmem
    cases this
  | cons t rest =>
    have hblock := hblocks t rfl
    have hposition : err.position? = some t.position := by
      rw [ParseError.position?, hblock.token?_eq, Option.map_some]
    have hget : (ts ++ t :: rest)[ts.length]? = some t := by simp
    refine ⟨⟨ts.length, t, hget, hposition⟩, fun i u hu hup => ?_⟩
    have hsame : u.position = t.position := Option.some.inj (hup.symm.trans hposition)
    obtain rfl := hread.index_unique hu hget hsame
    have hthrough : (ts ++ t :: rest).take (ts.length + 1) = ts ++ [t] := by
      rw [List.take_length_add_append]
      rfl
    constructor
    · rw [List.take_append_length]
      apply exists_parse_of_steps hsteps
    · intro more e
      rw [hthrough, List.append_assoc]
      apply parse_ne_ok_of_blocks hsteps hblock hp more e

/-- The parenthesis that stands where an operand is due is the first offending token. -/
theorem parse_error_at_first_offending_of_paren :
  ∃ tokens err, tokenize "(a or )" = .ok tokens ∧ parse tokens ["a"] .strict = .error err ∧
    err.position? = some 6 ∧ (∃ more e, parse (tokens.take 3 ++ more) ["a"] .strict = .ok e) ∧
    ∀ more e, parse (tokens.take 4 ++ more) ["a"] .strict ≠ .ok e
  := by
  let paren : Token := ⟨.rightParen, ")", none, 6⟩
  have htokens : tokenize "(a or )" = .ok
      [⟨.leftParen, "(", none, 0⟩, ⟨.identifier, "a", none, 1⟩, ⟨.or, "or", none, 3⟩,
       paren, .endAt 7] := by
    decide +kernel
  obtain ⟨-, hat⟩ := @parse_error_at_first_offending .strict _ _ htokens ["a"] rfl
    (.expectedExpression paren) rfl (fun h => nomatch h)
  exact ⟨_, _, htokens, rfl, rfl, hat 3 paren rfl rfl⟩

end TableQuery.Filter
