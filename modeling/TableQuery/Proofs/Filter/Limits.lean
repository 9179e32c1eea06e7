import TableQuery.Proofs.Filter.Faults

/-!
# Limits of depth

A higher limit of depth takes away errors of depth and changes nothing else.  What a state does at
a token is the same within both limits, unless the lower one is exceeded there
(`Rules.Moves.of_limit_le`, `Rules.advance?_of_limit_le`).  So a reading that keeps within the lower
limit is the same within the higher one, and one that does not gets at least as far
(`parse_of_maxDepth_le`).
-/

namespace TableQuery.Filter

/-- Whether the fault is that a group or an operator lies too deep. -/
def ParseError.isTooDeep : ParseError → Bool
  | tooDeep _ _ => true
  | _ => false

namespace Rules

variable {r : Rules} {limit : Nat} {s s' : State} {t last : Token} {ts : List Token}
  {err : ParseError}

/-! ### Runs within two limits -/

/-- What a state moves over within a limit it moves over within a higher one. -/
theorem Moves.of_limit_le (hle : r.limit ≤ limit) (h : r.Moves s t s') :
  { r with limit }.Moves s t s'
  := by
  cases h with
  | leftParen ht hf => exact .leftParen ht (Nat.lt_of_lt_of_le hf hle)
  | operand ht hnames => exact .operand ht hnames
  | operator ht hf => exact .operator ht (Nat.lt_of_lt_of_le hf hle)
  | and ht => exact .and ht
  | or ht => exact .or ht
  | rightParen ht => exact .rightParen ht

theorem Steps.of_limit_le (hle : r.limit ≤ limit) (h : r.Steps s ts s') :
  { r with limit }.Steps s ts s'
  := by
  induction h with
  | nil s => exact .nil s
  | cons ht _ ih => exact .cons (ht.of_limit_le hle) ih

/-- What a state moves over within a limit it moves over within a lower one, or it lies too deep. -/
theorem Moves.moves_or_refuses (h : { r with limit }.Moves s t s') :
  r.Moves s t s' ∨ r.Refuses s t (.tooDeep t r.limit)
  := by
  cases h with
  | @leftParen _ f outer ht hf =>
    rcases Nat.lt_or_ge f.depth r.limit with hlt | hge
    · exact .inl (.leftParen ht hlt)
    · exact .inr (.leftParen ht hge)
  | operand ht hnames => exact .inl (.operand ht hnames)
  | @operator _ op e f outer ht hf =>
    rcases Nat.lt_or_ge f.depth r.limit with hlt | hge
    · exact .inl (.operator ht hlt)
    · exact .inr (.operator ht hge)
  | and ht => exact .inl (.and ht)
  | or ht => exact .inl (.or ht)
  | rightParen ht => exact .inl (.rightParen ht)

/-- What a state refuses within a limit it refuses within a lower one. -/
theorem Refuses.of_limit_le (hle : r.limit ≤ limit) (h : { r with limit }.Refuses s t err) :
  ∃ err, r.Refuses s t err
  := by
  cases h with
  | name ht hname => exact ⟨_, .name ht hname⟩
  | leftParen ht hf => exact ⟨_, .leftParen ht (Nat.le_trans hle hf)⟩
  | operator ht hf => exact ⟨_, .operator ht (Nat.le_trans hle hf)⟩

/-- What lies too deep within one limit lies too deep within another or is moved over. -/
theorem Refuses.moves_or_refuses (h : r.Refuses s t err) (herr : err.isTooDeep = true)
    (limit : Nat) :
  (∃ s', { r with limit }.Moves s t s') ∨ { r with limit }.Refuses s t (.tooDeep t limit)
  := by
  cases h with
  | name => cases herr
  | @leftParen _ f outer ht hf =>
    rcases Nat.lt_or_ge f.depth limit with hlt | hge
    · exact .inl ⟨_, .leftParen ht hlt⟩
    · exact .inr (.leftParen ht hge)
  | @operator _ op e f outer ht hf =>
    rcases Nat.lt_or_ge f.depth limit with hlt | hge
    · exact .inl ⟨_, .operator ht hlt⟩
    · exact .inr (.operator ht hge)

/-- A higher limit makes no difference at a token, unless the lower one is exceeded there. -/
theorem advance?_of_limit_le (hle : r.limit ≤ limit)
    (h : ∀ err, r.advance? s t = .error err → err.isTooDeep = false) :
  { r with limit }.advance? s t = r.advance? s t
  := by
  cases hadvance : r.advance? s t with
  | error err =>
    have hdepth := h err hadvance
    cases advance?_eq_error_iff.mp hadvance with
    | name ht hname => exact advance?_eq_error_iff.mpr (.name ht hname)
    | leftParen | operator => cases hdepth
  | ok next =>
    cases next with
    | some s' => exact advance?_eq_some_iff.mpr ((advance?_eq_some_iff.mp hadvance).of_limit_le hle)
    | none =>
      have hrefuses (err : ParseError) : ¬ r.Refuses s t err := by
        intro hr
        rw [advance?_eq_error_iff.mpr hr] at hadvance
        cases hadvance
      cases hhigh : { r with limit }.advance? s t with
      | error err =>
        obtain ⟨err, hr⟩ := (advance?_eq_error_iff.mp hhigh).of_limit_le hle
        exact absurd hr (hrefuses err)
      | ok next =>
        cases next with
        | none => rfl
        | some s' =>
          rcases (advance?_eq_some_iff.mp hhigh).moves_or_refuses with hm | hr
          · rw [advance?_eq_some_iff.mpr hm] at hadvance
            cases hadvance
          · exact absurd hr (hrefuses _)

/-- A run that keeps within a limit is the same within a higher one. -/
theorem run_of_limit_le (hle : r.limit ≤ limit)
    (h : ∀ err, r.run last s ts = .error err → err.isTooDeep = false) :
  { r with limit }.run last s ts = r.run last s ts
  := by
  induction ts generalizing s with
  | nil => rfl
  | cons t ts ih =>
    rw [run] at h
    rw [run, run, advance?_of_limit_le hle fun err herr => h err (by rw [herr])]
    cases hadvance : r.advance? s t with
    | error e => rfl
    | ok next =>
      cases next with
      | none => rfl
      | some s' => exact ih fun err herr => h err (by rw [hadvance]; exact herr)

/-- A reading that is blocked by a token which lies too deep refuses it. -/
theorem Blocks.refuses (h : r.Blocks s t err) (herr : err.isTooDeep = true) :
  r.Refuses s t err
  := by
  cases h with
  | fault h => apply advance?_eq_error_iff.mp h
  | incomplete _ hs =>
    match s with
    | .due _ _ | .read _ _ (_ :: _) =>
      cases hs
      cases herr
    | .read _ _ [] => cases hs
  | trailing => cases herr

/-- A token that blocks a reading is not moved over. -/
theorem Blocks.not_moves (h : r.Blocks s t err) (s' : State) :
  ¬ r.Moves s t s'
  := by
  intro hm
  have hsome := advance?_eq_some_iff.mpr hm
  cases h with
  | fault h | incomplete h | trailing h =>
    rw [h] at hsome
    cases hsome

/-- A token that is refused blocks a reading for no other reason. -/
theorem Blocks.eq_of_refuses {err' : ParseError} (h : r.Blocks s t err) (hr : r.Refuses s t err') :
  err = err'
  := by
  have herror := advance?_eq_error_iff.mpr hr
  cases h with
  | fault h => exact Except.error.inj (h.symm.trans herror)
  | incomplete h | trailing h =>
    rw [h] at herror
    cases herror

end Rules

/-! ### Readings within two limits -/

variable {columns : List String} {p q : Policy} {tokens : List Token}

/-- A reading that keeps within a limit of depth, whatever it gives, is the same within a higher
one. -/
theorem parse_eq_of_maxDepth_le (hmode : p.mode = q.mode) (hdepth : p.maxDepth ≤ q.maxDepth)
    (h : ∀ err, parse tokens columns p = .error err → err.isTooDeep = false) :
  parse tokens columns q = parse tokens columns p
  := by
  by_cases hempty : (tokens.head?.getD (endOf tokens)).isEnd = true
  · rw [parse, parse, if_pos hempty, if_pos hempty]
  · have hnonempty := Bool.eq_false_iff.mpr hempty
    rw [parse_eq hnonempty] at h
    have hrun : (rulesOf columns q).run (endOf tokens) .start tokens
        = (rulesOf columns p).run (endOf tokens) .start tokens :=
      Rules.run_of_limit_le (r := rulesOf columns p) (UInt64.le_iff_toNat_le.mp hdepth)
        fun err herr => h err (by rw [herr])
    rw [parse_eq hnonempty, parse_eq hnonempty, hrun, Policy.allowsTrailing, Policy.allowsTrailing,
      hmode]

/-- Where a token of a text lies too deep, a reading within a higher limit fails for the same reason,
or at a later token. -/
theorem exists_position_of_tooDeep {s : String} (h : tokenize s = .ok tokens)
    (hdepth : p.maxDepth ≤ q.maxDepth) {t : Token} {limit : Nat} {err : ParseError}
    (hdeep : parse tokens columns p = .error (.tooDeep t limit))
    (herr : parse tokens columns q = .error err) :
  ∃ position, err.position? = some position ∧
    (err.isTooDeep = true ∧ t.position ≤ position ∨ t.position < position)
  := by
  obtain ⟨ts, rest, s, rfl, hsteps, hblocks⟩ :=
    exists_blocks_of_parse hdeep (fun hempty => nomatch hempty)
  have hread := areRead_of_tokenize h
  obtain ⟨u, more, rfl⟩ := hread.exists_cons_of_steps hsteps
  have hblock := hblocks u rfl
  obtain rfl : t = u := Option.some.inj hblock.token?_eq
  have hnonempty : ((ts ++ t :: more).head?.getD (endOf (ts ++ t :: more))).isEnd = false := by
    apply Bool.eq_false_iff.mpr
    intro hempty
    rw [parse, if_pos hempty] at hdeep
    cases hdeep
  -- The reading within the higher limit gets to the same token, and fails there or later.
  have hsteps' : (rulesOf columns q).Steps .start ts s :=
    hsteps.of_limit_le (UInt64.le_iff_toNat_le.mp hdepth)
  obtain ⟨us, rest, s', hmore, hfurther, hblocks'⟩ :=
    exists_blocks_of_steps hnonempty hsteps' herr
  cases us with
  | nil =>
    obtain rfl : t :: more = rest := hmore
    have hblock' := hblocks' t rfl
    cases hfurther
    rw [ParseError.position?, hblock'.token?_eq]
    refine ⟨t.position, rfl, .inl ⟨?_, Nat.le_refl _⟩⟩
    rcases (hblock.refuses rfl).moves_or_refuses rfl q.maxDepth.toNat with ⟨s', hm⟩ | hr
    · exact absurd hm (hblock'.not_moves s')
    · rw [hblock'.eq_of_refuses hr]
      rfl
  | cons u us =>
    obtain ⟨rfl, rfl⟩ := List.cons.inj hmore
    have hall : AreRead 0 ((ts ++ t :: us) ++ rest) := by simpa using hread
    obtain ⟨v, rest, rfl⟩ := hall.exists_cons_of_steps (hsteps'.append hfurther)
    have hlater := (List.pairwise_append.mp hread.positions).2.1
    rw [ParseError.position?, (hblocks' v rfl).token?_eq]
    exact ⟨v.position, rfl, .inr ((List.pairwise_cons.mp hlater).1 v (by simp))⟩

/-- Raising the limit of depth only removes errors of depth.  Every other result of reading the
tokens of a text stays as it is, be it a tree or an error.  Where a token lay too deep, the reading
now succeeds, or fails at that token or a later one because it lies too deep, or fails for another
reason at a later token. -/
theorem parse_of_maxDepth_le {s : String} (h : tokenize s = .ok tokens) (columns : List String)
    (hmode : p.mode = q.mode) (hdepth : p.maxDepth ≤ q.maxDepth) :
  ((∀ t limit, parse tokens columns p ≠ .error (.tooDeep t limit)) →
    parse tokens columns q = parse tokens columns p) ∧
  ∀ t limit, parse tokens columns p = .error (.tooDeep t limit) →
    (∃ e, parse tokens columns q = .ok e) ∨
    ∃ err position, parse tokens columns q = .error err ∧ err.position? = some position ∧
      (err.isTooDeep = true ∧ t.position ≤ position ∨ t.position < position)
  := by
  constructor
  · intro hne
    apply parse_eq_of_maxDepth_le hmode hdepth
    intro err herr
    cases err with
    | tooDeep t limit => exact absurd herr (hne t limit)
    | _ => rfl
  · intro t limit hdeep
    cases hresult : parse tokens columns q with
    | ok e => exact .inl ⟨e, rfl⟩
    | error err =>
      obtain ⟨position, hposition, horder⟩ := exists_position_of_tooDeep h hdepth hdeep hresult
      exact .inr ⟨err, position, rfl, hposition, horder⟩

/-- An operator in a group lies too deep within the limit one.  Within the limit three another group
follows it, which is never closed. -/
theorem parse_of_maxDepth_le_of_groups :
  ∃ tokens t u, tokenize "(a == (b" = .ok tokens ∧
    parse tokens ["a", "b"] { maxDepth := 1 } = .error (.tooDeep t 1) ∧ t.position = 3 ∧
    parse tokens ["a", "b"] { maxDepth := 3 } = .error (.unclosedGroup u) ∧ u.position = 8 ∧
    t.position < u.position ∧
    parse tokens ["a", "b"] { maxDepth := 4 } = parse tokens ["a", "b"] { maxDepth := 3 }
  := by
  have htokens : tokenize "(a == (b" = .ok
      [⟨.leftParen, "(", none, 0⟩, ⟨.identifier, "a", none, 1⟩, ⟨.equal, "==", none, 3⟩,
       ⟨.leftParen, "(", none, 6⟩, ⟨.identifier, "b", none, 7⟩, .endAt 8] := by
    decide +kernel
  obtain ⟨-, hdeep⟩ := @parse_of_maxDepth_le { maxDepth := 1 } { maxDepth := 3 } _ _ htokens
    ["a", "b"] rfl (by decide)
  obtain ⟨hsame, -⟩ := @parse_of_maxDepth_le { maxDepth := 3 } { maxDepth := 4 } _ _ htokens
    ["a", "b"] rfl (by decide)
  refine ⟨_, _, _, htokens, rfl, rfl, rfl, rfl, ?_, hsame fun t limit h => nomatch h⟩
  rcases hdeep _ _ rfl with ⟨e, he⟩ | ⟨err, position, herr, hposition, hlater⟩
  · cases he
  · cases herr
    cases hposition
    rcases hlater with ⟨hdeep, -⟩ | hlater
    · cases hdeep
    · apply hlater

end TableQuery.Filter
