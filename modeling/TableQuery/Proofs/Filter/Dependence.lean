import TableQuery.Proofs.Filter.Faults
import TableQuery.Proofs.Filter.Places

/-!
# What a reading depends on

A reading depends on nothing but the sequence of its tokens.  Tokens that are alike one by one give
the same tree up to positions or the same error at the same index, and the mark at the end of a text
makes no difference (`parse_determined`).  Where there is no such mark, the run meets the end of the
list in its place (`Rules.run_concat_of_isEnd`), and runs over the same tokens before two different
ends agree (`Rules.run_agree`).
-/

namespace TableQuery.Filter

/-- The tokens `t` and `u` have the same index in two lists, each with its end after it. -/
def AtSameIndex (ts us : List Token) (t u : Token) : Prop :=
  ∃ i : Nat, (ts ++ [endOf ts])[i]? = some t ∧ (us ++ [endOf us])[i]? = some u

section

variable {ts us : List Token}

theorem atSameIndex_getElem {i : Nat} (hts : i < ts.length) (hus : i < us.length) :
  AtSameIndex ts us ts[i] us[i]
  := by
  use i
  simp [List.getElem?_append_left, hts, hus]

theorem atSameIndex_endOf (h : ts.length = us.length) :
  AtSameIndex ts us (endOf ts) (endOf us)
  := by
  use ts.length
  constructor
  · simp
  · simp [h]

/-- Lists that are alike one by one are alike at each index. -/
theorem forall₂_atSameIndex (h : List.Forall₂ Token.Alike ts us) :
  List.Forall₂ (fun t u => t.Alike u ∧ AtSameIndex ts us t u) ts us
  := by
  obtain ⟨hlength, halike⟩ := List.forall₂_iff_get.mp h
  apply List.forall₂_iff_get.mpr
  use hlength
  intro i hts hus
  exact ⟨halike i hts hus, atSameIndex_getElem hts hus⟩

/-- A token has the same index in a list and in the list with one more token. -/
theorem atSameIndex_concat {t u : Token} (h : u ∈ ts) :
  AtSameIndex (ts ++ [t]) ts u u
  := by
  obtain ⟨i, hi, rfl⟩ := List.getElem_of_mem h
  use i
  constructor
  · simp [List.getElem?_append_left, hi]
  · simp [List.getElem?_append_left, hi]

end

/-! ### Ends -/

section

variable {P : Token → Token → Prop} {r : Rules} {t u last last' : Token} {s : State}
  {ts : List Token}

theorem ParseError.alike_self {e : ParseError} (h : ∀ t ∈ e.token?, P t t) :
  e.Alike P e
  := by
  cases e with
  | empty => exact .empty
  | unknownColumn t available => exact .unknownColumn (h t rfl) available
  | expectedExpression t => exact .expectedExpression (h t rfl)
  | unclosedGroup t => exact .unclosedGroup (h t rfl)
  | trailingInput t => exact .trailingInput (h t rfl)
  | tooDeep t limit => exact .tooDeep (h t rfl) limit

namespace Rules

/-- What is complete before a token is complete before any other. -/
theorem stop_agree (h : P t u) :
  Agree P (· = ·) (stop s t) (stop s u)
  := by
  match s with
  | .due _ _ => exact .error (.expectedExpression h)
  | .read _ _ (_ :: _) => exact .error (.unclosedGroup h)
  | .read _ _ [] => exact .ok rfl

/-- A run stops before a token that ends the filter as it does at the end of the list. -/
theorem run_concat_of_isEnd (ht : t.isEnd = true) (last : Token) (s : State) (ts : List Token) :
  r.run last s (ts ++ [t]) = r.run t s ts
  := by
  induction ts generalizing s with
  | nil => rw [List.nil_append, run, run, advance?_of_isEnd ht]
  | cons u ts ih =>
    rw [List.cons_append, run, run]
    cases r.advance? s u with
    | error e => rfl
    | ok next =>
      cases next with
      | none => rfl
      | some s' => apply ih

/-- Runs over the same tokens before two ends agree. -/
theorem run_agree (h : ∀ t ∈ ts, P t t) (hlast : last.isEnd = last'.isEnd ∧ P last last') :
  Agree P (fun x y => x.1 = y.1 ∧ x.2.isEnd = y.2.isEnd ∧ P x.2 y.2) (r.run last s ts)
    (r.run last' s ts)
  := by
  induction ts generalizing s with
  | nil => exact (stop_agree hlast.2).map fun e e' he => ⟨he, hlast⟩
  | cons t ts ih =>
    obtain ⟨ht, hts⟩ := List.forall_mem_cons.mp h
    rw [run, run]
    cases hadvance : r.advance? s t with
    | error e =>
      apply Agree.error
      apply ParseError.alike_self
      rw [token?_of_advance?_error hadvance]
      intro u hu
      obtain rfl := Option.mem_some.mp hu
      apply ht
    | ok next =>
      cases next with
      | none => exact (stop_agree ht).map fun e e' he => ⟨he, rfl, ht⟩
      | some s' => apply ih hts

end Rules

/-- The end of the filter after the tokens makes no difference to what is read from them. -/
theorem parse_concat_of_isEnd (ht : t.isEnd = true) (columns : List String) (p : Policy) :
  Agree (AtSameIndex (ts ++ [t]) ts) (· = ·) (parse (ts ++ [t]) columns p) (parse ts columns p)
  := by
  apply parse_agree
  · cases ts with
    | nil => apply ht
    | cons => rfl
  · rw [Rules.run_concat_of_isEnd ht]
    apply Rules.run_agree
    · intro u hu
      apply atSameIndex_concat hu
    · constructor
      · apply ht
      · use ts.length
        simp

end

/-! ### Readings -/

/-- Tokens that agree one by one on their kinds, their values and the spellings of names are read as
trees that are equal up to positions, or fail with errors of one kind at tokens of the same index.
The tokens of a text without the mark at its end are read as the same tree, or fail with an error
of the same kind at the same index. -/
theorem parse_determined (columns : List String) (p : Policy) :
  (∀ ts us, List.Forall₂ Token.Alike ts us →
    Agree (AtSameIndex ts us) (fun e e' => e.unplaced = e'.unplaced) (parse ts columns p)
      (parse us columns p)) ∧
  ∀ s tokens, tokenize s = .ok tokens →
    ∃ body stop, tokens = body ++ [.endAt stop] ∧
      Agree (AtSameIndex tokens body) (· = ·) (parse tokens columns p) (parse body columns p)
  := by
  constructor
  · intro ts us h
    apply parse_alike columns p (forall₂_atSameIndex h)
    apply atSameIndex_endOf h.length_eq
  · intro s tokens h
    obtain ⟨body, stop, rfl, -⟩ := (areRead_of_tokenize h).ending
    use body, stop, rfl
    apply parse_concat_of_isEnd (Token.isEnd_endAt stop)

/-- A group that is left open, in two spellings and with or without the end of its text. -/
theorem parse_determined_of_open_group :
  ∃ ts us body, tokenize "(n = 1 or" = .ok ts ∧ tokenize "( n  ==  1.0 OR" = .ok us ∧
    List.Forall₂ Token.Alike ts us ∧
    parse ts ["n"] .strict = .error (.expectedExpression (.endAt 9)) ∧
    Agree (AtSameIndex ts us) (fun e e' => e.unplaced = e'.unplaced) (parse ts ["n"] .strict)
      (parse us ["n"] .strict) ∧
    ts = body ++ [.endAt 9] ∧
    Agree (AtSameIndex ts body) (· = ·) (parse ts ["n"] .strict) (parse body ["n"] .strict)
  := by
  have hts : tokenize "(n = 1 or" = .ok
      [⟨.leftParen, "(", none, 0⟩, ⟨.identifier, "n", none, 1⟩, ⟨.equal, "=", none, 3⟩,
       ⟨.number, "1", some (.float (.ofInt 1)), 5⟩, ⟨.or, "or", none, 7⟩, .endAt 9] := by
    decide +kernel
  have hus : tokenize "( n  ==  1.0 OR" = .ok
      [⟨.leftParen, "(", none, 0⟩, ⟨.identifier, "n", none, 2⟩, ⟨.equal, "==", none, 5⟩,
       ⟨.number, "1.0", some (.float (.ofInt 1)), 9⟩, ⟨.or, "OR", none, 13⟩, .endAt 15] := by
    decide +kernel
  have halike : List.Forall₂ Token.Alike
      [⟨.leftParen, "(", none, 0⟩, ⟨.identifier, "n", none, 1⟩, ⟨.equal, "=", none, 3⟩,
       ⟨.number, "1", some (.float (.ofInt 1)), 5⟩, ⟨.or, "or", none, 7⟩, .endAt 9]
      [⟨.leftParen, "(", none, 0⟩, ⟨.identifier, "n", none, 2⟩, ⟨.equal, "==", none, 5⟩,
       ⟨.number, "1.0", some (.float (.ofInt 1)), 9⟩, ⟨.or, "OR", none, 13⟩, .endAt 15] := by
    simp only [List.forall₂_cons, List.forall₂_nil_left_iff, and_true]
    refine ⟨?_, ?_, ?_, ?_, ?_, ?_⟩ <;> constructor <;> simp [Token.endAt]
  obtain ⟨hlists, htexts⟩ := parse_determined ["n"] .strict
  obtain ⟨body, stop, hbody, hend⟩ := htexts _ _ hts
  have hstop : Token.endAt stop = .endAt 9 := by
    have hlast := congrArg List.getLast? hbody
    simpa using hlast.symm
  rw [hstop] at hbody
  exact ⟨_, _, body, hts, hus, halike, rfl, hlists _ _ halike, hbody, hend⟩

end TableQuery.Filter
