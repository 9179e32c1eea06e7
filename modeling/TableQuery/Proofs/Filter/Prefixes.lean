import TableQuery.Proofs.Filter.Faults

/-!
# The longest filter at the start of a text

A lenient reading differs from one in full only where the latter meets further tokens after a
complete expression.  There it gives the tree of the tokens before them, and no longer beginning
of the tokens is read in full (`parse_lenient`): the run stops at a token over which no state
moves, so what follows that token does not matter.
-/

namespace TableQuery.Filter

variable {columns : List String} {p q : Policy} {tokens : List Token}

/-- A run has no complaint about what follows the expression. -/
theorem Rules.run_ne_trailingInput {r : Rules} {last : Token} {s : State} (t : Token) :
  r.run last s tokens ≠ .error (.trailingInput t)
  := by
  have hstop (s : State) (u : Token) : (stop s u).map (·, u) ≠ .error (.trailingInput t) := by
    match s with
    | .due _ _ | .read _ _ (_ :: _) | .read _ _ [] => simp [stop, Except.map]
  obtain ⟨us, rest, s', -, -, hends⟩ := exists_steps_of_run r last s tokens
  generalize r.run last s tokens = result at hends
  cases hends with
  | atEnd => apply hstop
  | stuck h => apply hstop
  | fault h => cases advance?_eq_error_iff.mp h <;> simp

/-- The mode makes no difference unless a reading in full meets further tokens. -/
theorem parse_eq_of_ne_trailingInput (hp : p.mode = .strict) (hdepth : p.maxDepth = q.maxDepth)
    (h : ∀ t, parse tokens columns p ≠ .error (.trailingInput t)) :
  parse tokens columns q = parse tokens columns p
  := by
  by_cases hempty : (tokens.head?.getD (endOf tokens)).isEnd = true
  · rw [parse, parse, if_pos hempty, if_pos hempty]
  · have hrules : rulesOf columns q = rulesOf columns p := by rw [rulesOf, rulesOf, hdepth]
    have hnonempty := Bool.eq_false_iff.mpr hempty
    rw [parse_eq hnonempty] at h
    rw [parse_eq hnonempty, parse_eq hnonempty, hrules]
    cases hrun : (rulesOf columns p).run (endOf tokens) .start tokens with
    | error e => rfl
    | ok found =>
      obtain ⟨e, next⟩ := found
      cases hend : next.isEnd with
      | true => simp [hend]
      | false =>
        have htrailing := h next
        simp [hrun, hend, Policy.allowsTrailing, hp] at htrailing

/-- Where a reading in full meets further tokens, the tokens before them are an expression, and the
run stops at the first of them. -/
theorem exists_steps_of_trailingInput {t : Token} (hq : q.mode = .lenient)
    (hdepth : p.maxDepth = q.maxDepth) (h : parse tokens columns p = .error (.trailingInput t)) :
  ∃ body rest c f, tokens = body ++ t :: rest ∧
    (rulesOf columns p).Steps .start body (.read c f []) ∧
    (rulesOf columns p).Blocks (.read c f []) t (.trailingInput t) ∧
    parse tokens columns q = .ok (f.expression c)
  := by
  have hrules : rulesOf columns q = rulesOf columns p := by rw [rulesOf, rulesOf, hdepth]
  by_cases hempty : (tokens.head?.getD (endOf tokens)).isEnd = true
  · rw [parse, if_pos hempty] at h
    cases h
  · have hnonempty := Bool.eq_false_iff.mpr hempty
    have hlenient := @parse_eq columns q tokens hnonempty
    rw [parse_eq hnonempty] at h
    obtain ⟨body, rest, s, htokens, hsteps, hends⟩ :=
      Rules.exists_steps_of_run (rulesOf columns p) (endOf tokens) .start tokens
    cases hrun : (rulesOf columns p).run (endOf tokens) .start tokens with
    | error e =>
      rw [hrun] at h
      cases h
      exact absurd hrun (Rules.run_ne_trailingInput t)
    | ok found =>
      obtain ⟨e, next⟩ := found
      rw [hrun] at h hends
      obtain ⟨c, f, rfl, rfl, hnext⟩ := hends.complete
      simp only at h
      split at h
      · cases h
      · next hend =>
        cases h
        rw [Bool.or_eq_true, not_or, Bool.not_eq_true] at hend
        -- The end of the list is no token that follows, so one of the tokens was met.
        cases rest with
        | nil =>
          rw [hnext] at hend
          cases hend.1
        | cons u rest =>
          obtain rfl : t = u := hnext
          refine ⟨body, rest, c, f, htokens, hsteps, ?_, ?_⟩
          · generalize hresult : Except.ok (f.expression c, t) = result at hends
            cases hends with
            | stuck hadvance => exact .trailing hadvance hend.1
            | fault hadvance => cases hresult
          · rw [hlenient, hrules, hrun]
            simp [Policy.allowsTrailing, hq]

/-- A lenient reading of the tokens of a text is the reading in full of the longest beginning that
can be read.  It gives what a reading in full gives, be it a tree or an error, unless that one meets
a further token after a complete expression.  Then it gives the tree of the tokens before that
token, and no list of tokens that goes on after them as the text does is read in full. -/
theorem parse_lenient {s : String} (h : tokenize s = .ok tokens) (columns : List String)
    (hp : p.mode = .strict) (hq : q.mode = .lenient) (hdepth : p.maxDepth = q.maxDepth) :
  (∀ e, parse tokens columns p = .ok e → parse tokens columns q = .ok e) ∧
  (∀ t, parse tokens columns p = .error (.trailingInput t) →
    (∃ i : Nat, tokens[i]? = some t) ∧
    ∀ i : Nat, tokens[i]? = some t →
      (∃ e, parse tokens columns q = .ok e ∧
        ∀ stop, parse (tokens.take i ++ [.endAt stop]) columns p = .ok e) ∧
      ∀ j more e, i < j → parse (tokens.take j ++ more) columns p ≠ .ok e) ∧
  ∀ err, parse tokens columns p = .error err → (∀ t, err ≠ .trailingInput t) →
    parse tokens columns q = .error err
  := by
  refine ⟨fun e he => ?complete, fun t ht => ?trailing, fun err herr hne => ?fault⟩
  case complete =>
    rw [parse_eq_of_ne_trailingInput hp hdepth (by simp [he]), he]
  case fault =>
    rw [parse_eq_of_ne_trailingInput hp hdepth (by simpa [herr] using hne), herr]
  case trailing =>
    obtain ⟨body, rest, c, f, rfl, hsteps, hblocks, hlenient⟩ :=
      exists_steps_of_trailingInput hq hdepth ht
    have hget : (body ++ t :: rest)[body.length]? = some t := by simp
    refine ⟨⟨body.length, hget⟩, fun i hi => ?_⟩
    obtain rfl := (areRead_of_tokenize h).index_unique hi hget rfl
    refine ⟨⟨f.expression c, hlenient, fun stop => ?_⟩, fun j more e hj => ?_⟩
    · rw [List.take_left]
      apply parse_of_steps hsteps
      simp
    · obtain ⟨k, rfl⟩ : ∃ k, j = body.length + (k + 1) := ⟨j - body.length - 1, by omega⟩
      rw [List.take_length_add_append, List.take_succ_cons, List.append_assoc, List.cons_append]
      apply parse_ne_ok_of_blocks hsteps hblocks hp

/-- The parenthesis closes no group, so the filter is what stands before it. -/
theorem parse_lenient_of_paren :
  ∃ tokens paren e, tokenize "a or null) b" = .ok tokens ∧
    parse tokens ["a"] .strict = .error (.trailingInput paren) ∧ tokens[3]? = some paren ∧
    parse tokens ["a"] .lenient = .ok e ∧
    (∀ stop, parse (tokens.take 3 ++ [.endAt stop]) ["a"] .strict = .ok e) ∧
    ∀ j more e, 3 < j → parse (tokens.take j ++ more) ["a"] .strict ≠ .ok e
  := by
  have htokens : tokenize "a or null) b" = .ok
      [⟨.identifier, "a", none, 0⟩, ⟨.or, "or", none, 2⟩, ⟨.nullWord, "null", none, 5⟩,
       ⟨.rightParen, ")", none, 9⟩, ⟨.identifier, "b", none, 11⟩, .endAt 12] := by
    decide +kernel
  obtain ⟨-, htrailing, -⟩ :=
    @parse_lenient .strict .lenient _ _ htokens ["a"] rfl rfl rfl
  obtain ⟨⟨e, hlenient, hbefore⟩, hlonger⟩ := (htrailing _ rfl).2 3 rfl
  exact ⟨_, _, e, htokens, rfl, rfl, hlenient, hbefore, hlonger⟩

end TableQuery.Filter
