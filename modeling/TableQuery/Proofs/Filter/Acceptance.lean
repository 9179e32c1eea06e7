import TableQuery.Proofs.Filter.Soundness
import TableQuery.Proofs.Filter.Tokens

/-!
# What is read as a filter

Reading in full accepts exactly the tokens that derive from `expression`, name only columns and
keep within the limit of depth, and gives the tree of their derivation, which is the only one.
A reading is a run of the steps of its tokens (`exists_steps_of_parse`, `parse_of_steps`), so
acceptance is the soundness and the completeness of steps, and a tree is unique because a run
of steps ends in one state.
-/

namespace TableQuery.Filter

/-- What a policy lets an expression over the columns be. -/
def rulesOf (columns : List String) (p : Policy) : Rules :=
  ⟨columns, p.maxDepth.toNat⟩

variable {columns : List String} {p : Policy} {tokens : List Token}

/-! ### Readings as runs -/

namespace Rules

variable {r : Rules}

/-- No state moves over the end of a filter. -/
theorem Moves.isEnd_eq_false {s s' : State} {t : Token} (h : r.Moves s t s') :
  t.isEnd = false
  := by
  apply Bool.eq_false_iff.mpr
  intro ht
  have hsome := advance?_eq_some_iff.mpr h
  rw [advance?_of_isEnd ht] at hsome
  cases hsome

theorem Steps.isEnd_eq_false {s s' : State} {ts : List Token} (h : r.Steps s ts s') :
  ∀ t ∈ ts, t.isEnd = false
  := by
  induction h with
  | nil s => exact fun _ h => nomatch h
  | cons ht _ ih => exact List.forall_mem_cons.mpr ⟨ht.isEnd_eq_false, ih⟩

/-- The state in which a run ends with an expression. -/
theorem Ends.complete {last next : Token} {s : State} {rest : List Token} {e : Expr}
    (h : Ends r last s rest (.ok (e, next))) :
  ∃ c f, s = .read c f [] ∧ e = f.expression c ∧ next = rest.head?.getD last
  := by
  have hstop : ∀ t, (stop s t).map (·, t) = .ok (e, next) →
      ∃ c f, s = .read c f [] ∧ e = f.expression c ∧ next = t := by
    intro t ht
    match s with
    | .due _ _ | .read _ _ (_ :: _) => cases ht
    | .read c f [] =>
      cases ht
      exact ⟨c, f, rfl, rfl, rfl⟩
  generalize hresult : Except.ok (e, next) = result at h
  cases h with
  | atEnd => apply hstop last hresult.symm
  | stuck h => apply hstop _ hresult.symm
  | fault h => cases hresult

end Rules

theorem isEnd_endOf (tokens : List Token) :
  (endOf tokens).isEnd = true
  := rfl

/-- A reading is the run of the whole list, unless the list has no tokens before its end. -/
theorem parse_eq (h : (tokens.head?.getD (endOf tokens)).isEnd = false) :
  parse tokens columns p
    = match (rulesOf columns p).run (endOf tokens) .start tokens with
      | .error e => .error e
      | .ok (e, next) =>
        if next.isEnd || p.allowsTrailing then .ok e else .error (.trailingInput next)
  := by
  rw [parse, if_neg (by simp [h])]
  change (rulesOf columns p).run (endOf tokens) .start tokens >>= _ = _
  cases (rulesOf columns p).run (endOf tokens) .start tokens <;> rfl

/-- What is read from tokens is completed at the end of some of them, the rest of which the
policy ignores unless it starts with the end of the filter. -/
theorem exists_steps_of_parse {e : Expr} (h : parse tokens columns p = .ok e) :
  ∃ body rest c f, tokens = body ++ rest ∧
    (rulesOf columns p).Steps .start body (.read c f []) ∧ e = f.expression c ∧
    (p.allowsTrailing = false → ∀ t ∈ rest.head?, t.isEnd = true)
  := by
  by_cases hempty : (tokens.head?.getD (endOf tokens)).isEnd = true
  · rw [parse, if_pos hempty] at h
    cases h
  · rw [parse_eq (Bool.eq_false_iff.mpr hempty)] at h
    obtain ⟨body, rest, s, htokens, hsteps, hends⟩ :=
      Rules.exists_steps_of_run (rulesOf columns p) (endOf tokens) .start tokens
    split at h
    · cases h
    · next e' next hrun =>
      rw [hrun] at hends
      obtain ⟨c, f, rfl, rfl, rfl⟩ := hends.complete
      split at h
      · next hnext =>
        cases h
        refine ⟨body, rest, c, f, htokens, hsteps, rfl, fun hstrict t ht => ?_⟩
        rw [hstrict, Bool.or_false, Option.mem_def.mp ht] at hnext
        apply hnext
      · cases h

/-- What is complete before the end of the tokens, or before a token that ends them, is read
from them. -/
theorem parse_of_steps {body rest : List Token} {c : Expr} {f : Frame}
    (h : (rulesOf columns p).Steps .start body (.read c f []))
    (hrest : ∀ t ∈ rest.head?, t.isEnd = true) :
  parse (body ++ rest) columns p = .ok (f.expression c)
  := by
  have hhead : ((body ++ rest).head?.getD (endOf (body ++ rest))).isEnd = false := by
    cases h with
    | cons ht _ => apply ht.isEnd_eq_false
  rw [parse_eq hhead, Rules.run_of_steps h]
  cases rest with
  | nil =>
    simp only [Rules.run, Rules.stop, Except.map, isEnd_endOf]
    rfl
  | cons t rest =>
    have ht : t.isEnd = true := hrest t rfl
    simp only [Rules.run, Rules.advance?_of_isEnd ht, Rules.stop, Except.map, ht]
    rfl

/-! ### Acceptance -/

/-- A derivation over columns that holds its names, within the limit of depth, is followed to
its tree. -/
theorem Expression.steps {ts : List Token} {e : Expr} {r : Rules} (h : Expression ts e)
    (hnames : NamesIn r.columns ts) (hdepth : e.nesting ≤ r.limit) :
  ∃ c f, r.Steps .start ts (.read c f []) ∧ e = f.expression c
  := by
  obtain ⟨es, hes, rfl⟩ := h
  obtain ⟨c, f, hsteps, hlist, -⟩ := Rules.steps_of_disjunction hes hnames 0 []
    (fun e he => by
      rw [Nat.zero_add]
      apply Nat.le_trans (Expr.nesting_le_join .or he) hdepth)
  exact ⟨c, f, hsteps, by rw [Frame.expression, hlist]⟩

theorem Rules.Steps.unique {r : Rules} {s s₁ s₂ : State} {ts : List Token}
    (h₁ : r.Steps s ts s₁) (h₂ : r.Steps s ts s₂) :
  s₁ = s₂
  := by
  induction h₁ with
  | nil s =>
    cases h₂
    rfl
  | cons ht _ ih =>
    obtain _ | ⟨ht', hs'⟩ := h₂
    have hsame := (advance?_eq_some_iff.mpr ht).symm.trans (advance?_eq_some_iff.mpr ht')
    cases hsame
    apply ih hs'

/-- Tokens have at most one tree. -/
theorem Expression.unique {ts : List Token} {e₁ e₂ : Expr} (h₁ : Expression ts e₁)
    (h₂ : Expression ts e₂) :
  e₁ = e₂
  := by
  -- Follow both derivations under rules that neither of them can break.
  let r : Rules := ⟨ts.map Token.lexeme, max e₁.nesting e₂.nesting⟩
  have hnames : NamesIn r.columns ts := fun t ht _ => List.mem_map_of_mem ht
  obtain ⟨c₁, f₁, hs₁, rfl⟩ := h₁.steps (r := r) hnames (Nat.le_max_left _ _)
  obtain ⟨c₂, f₂, hs₂, rfl⟩ := h₂.steps (r := r) hnames (Nat.le_max_right _ _)
  cases hs₁.unique hs₂
  rfl

/-- Whether `t` stands before the end of the filter. -/
def Token.isBeforeEnd (t : Token) : Bool :=
  !t.isEnd

/-- The tokens before the end of the filter are those before the first one that ends it. -/
theorem takeWhile_isBeforeEnd {body rest : List Token} (hbody : ∀ t ∈ body, t.isEnd = false)
    (hrest : ∀ t ∈ rest.head?, t.isEnd = true) :
  (body ++ rest).takeWhile Token.isBeforeEnd = body
  := by
  apply takeWhile_append_of_ends
  · intro t ht
    simp [Token.isBeforeEnd, hbody t ht]
  · intro t ht
    simp [Token.isBeforeEnd, hrest t ht]

/-- A filter read in full derives from the tokens before its end, whatever stands after it. -/
theorem parse_eq_ok_iff (hp : p.mode = .strict) (e : Expr) :
  parse tokens columns p = .ok e
    ↔ Expression (tokens.takeWhile Token.isBeforeEnd) e ∧
      NamesIn columns (tokens.takeWhile Token.isBeforeEnd) ∧ e.nesting ≤ p.maxDepth.toNat
  := by
  constructor
  · intro h
    obtain ⟨body, rest, c, f, rfl, hsteps, rfl, hrest⟩ := exists_steps_of_parse h
    have hbody : (body ++ rest).takeWhile Token.isBeforeEnd = body :=
      takeWhile_isBeforeEnd hsteps.isEnd_eq_false (hrest (by simp [Policy.allowsTrailing, hp]))
    obtain ⟨hexpression, hdepth⟩ := hsteps.expression
    rw [hbody]
    exact ⟨hexpression, hsteps.namesIn, hdepth⟩
  · rintro ⟨hexpression, hnames, hdepth⟩
    obtain ⟨c, f, hsteps, rfl⟩ := hexpression.steps (r := rulesOf columns p) hnames hdepth
    have hrest : ∀ t ∈ (tokens.dropWhile Token.isBeforeEnd).head?, t.isEnd = true := by
      intro t ht
      have := List.head?_dropWhile_not Token.isBeforeEnd tokens
      rw [Option.mem_def.mp ht] at this
      simpa [Token.isBeforeEnd] using this
    have hparse := parse_of_steps hsteps hrest
    rwa [List.takeWhile_append_dropWhile] at hparse

/-- The tokens of a text are read in full exactly if those before the end derive from
`expression`, all names are columns, and the tree keeps within the limit of depth; then the
tree that is read is that of the derivation, and there is no other. -/
theorem parse_eq_ok_iff_expression {s : String} (h : tokenize s = .ok tokens)
    (columns : List String) (hp : p.mode = .strict) :
  ∃ body stop, tokens = body ++ [.endAt stop] ∧ (∀ t ∈ body, t.isEnd = false) ∧
    (∀ e, parse tokens columns p = .ok e
      ↔ Expression body e ∧ NamesIn columns tokens ∧ e.nesting ≤ p.maxDepth.toNat) ∧
    ∀ e₁ e₂, Expression body e₁ → Expression body e₂ → e₁ = e₂
  := by
  obtain ⟨body, stop, rfl, hread⟩ := (areRead_of_tokenize h).ending
  have hbody : (body ++ [Token.endAt stop]).takeWhile Token.isBeforeEnd = body := by
    apply takeWhile_append_of_ends
    · intro t ht
      simp [Token.isBeforeEnd, (hread t ht).notEnd]
    · simp [Token.isBeforeEnd]
  have hnames : NamesIn columns (body ++ [Token.endAt stop]) ↔ NamesIn columns body := by
    rw [namesIn_append]
    exact and_iff_left (namesIn_singleton (fun hk => nomatch hk))
  refine ⟨body, stop, rfl, fun t ht => (hread t ht).notEnd, fun e => ?_, ?_⟩
  · rw [parse_eq_ok_iff hp, hbody, hnames]
  · exact fun e₁ e₂ h₁ h₂ => h₁.unique h₂

/-- A group of a column and a literal. -/
theorem parse_eq_ok_iff_expression_of_group :
  ∃ tokens body, tokenize "(a or null)" = .ok tokens ∧ tokens = body ++ [.endAt 11] ∧
    ∀ e, parse tokens ["a"] .strict = .ok e
      ↔ Expression body e ∧ NamesIn ["a"] tokens ∧ e.nesting ≤ Policy.strict.maxDepth.toNat
  := by
  have htokens : tokenize "(a or null)" = .ok
      [⟨.leftParen, "(", none, 0⟩, ⟨.identifier, "a", none, 1⟩, ⟨.or, "or", none, 3⟩,
       ⟨.nullWord, "null", none, 6⟩, ⟨.rightParen, ")", none, 10⟩, .endAt 11] := by
    decide +kernel
  obtain ⟨body, stop, heq, -, hiff, -⟩ :=
    parse_eq_ok_iff_expression htokens ["a"] (p := Policy.strict) rfl
  have hstop : Token.endAt 11 = .endAt stop := by
    have := congrArg List.getLast? heq
    simpa using this
  exact ⟨_, body, htokens, hstop ▸ heq, hiff⟩

end TableQuery.Filter
