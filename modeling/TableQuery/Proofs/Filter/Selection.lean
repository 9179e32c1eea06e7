import TableQuery.Filter.Selection
import TableQuery.Proofs.Filter.Tokens
import TableQuery.Proofs.Text.Blank

/-!
# Selections by expressions

No token starts with a blank character, so a text that reads as an expression is not blank
(`isBlank_eq_false_of_read`), and selecting by it keeps the rows on which the expression holds
(`select_of_read`).
-/

namespace TableQuery.Filter

/-! ### Blank characters -/

/-- No token starts with a blank character. -/
theorem Shape.isBlankChar_eq_false {c : Char} {rest : List Char} {k : Token.Kind} {n : Nat}
    (h : Shape c rest k n) :
  Text.isBlankChar c = false
  := by
  cases h with
  | symbol h =>
    unfold symbol? at h
    split at h
    case h_11 => cases h
    all_goals
      next heq =>
        obtain rfl := (List.cons.inj heq).1
        rfl
  | string hc =>
    rw [hc]
    rfl
  | number hc => apply Text.isBlankChar_of_range (toNat_of_isDigit hc) rfl
  | word hc =>
    rcases Bool.or_eq_true_iff.mp hc with hletter | hmark
    · apply Text.isBlankChar_of_isLetter hletter
    · rw [of_decide_eq_true hmark]
      rfl

variable {s : String} {columns : List String} {p : Policy} {e : Expr}

/-- Reading a text is reading its tokens. -/
theorem read_eq_ok_iff :
  read s columns p = .ok e ↔ ∃ tokens, tokenize s = .ok tokens ∧ parse tokens columns p = .ok e
  := by
  rw [read]
  cases tokenize s with
  | error e => simp
  | ok tokens => cases h : parse tokens columns p <;> simp [h, Except.mapError]

theorem exists_read_of_isOk (h : (read s columns p).isOk = true) :
  ∃ e, read s columns p = .ok e
  := by
  cases hread : read s columns p with
  | ok e => use e
  | error err =>
    rw [hread] at h
    cases h

/-- What reads as an expression is not blank. -/
theorem isBlank_eq_false_of_read (h : read s columns p = .ok e) :
  Text.isBlank s = false
  := by
  obtain ⟨tokens, htokens, hparse⟩ := read_eq_ok_iff.mp h
  obtain ⟨m, htakes, hfinished⟩ := tokenize_eq_ok_iff.mp htokens
  apply Bool.eq_false_iff.mpr
  intro hblank
  cases htakes with
  | nil => cases hfinished
  | cons hnext hs =>
    cases Lexer.finds_of_next? hnext with
    | ending =>
      obtain rfl := hs.eq_nil_of_finished rfl
      cases hparse
    | @token gaps rest c _ _ hrest _ _ hscan =>
      have hshape := Shape.of_eq_ok (scan_eq_ok hscan).1
      have hmem : c ∈ s.toList := by
        change s.toList = gaps ++ c :: rest at hrest
        simp [hrest]
      have := List.all_eq_true.mp hblank c hmem
      rw [hshape.isBlankChar_eq_false] at this
      cases this

/-! ### Selected rows -/

variable {rows : List Row} {schema : Schema}

/-- A text that reads as an expression selects the rows on which it holds. -/
theorem select_of_read (h : read s schema.headers p = .ok e) :
  select rows schema s p
    = .ok (e.keep rows, ⟨rows.length, (e.keep rows).length, e.countFailed rows⟩)
  := by
  rw [select, isBlank_eq_false_of_read h, h]
  rfl

/-- The rows that pass a test, as the selection by a filter that has a value on every row. -/
def passing (test : Row → Bool) (rows : List Row) : List Row × Stats :=
  let kept := rows.filter test
  (kept, ⟨rows.length, kept.length, 0⟩)

/-- A text selects the rows that pass a test if the expression that it reads as is the test. -/
theorem select_eq_passing {test : Row → Bool} (h : read s schema.headers p = .ok e)
    (hholds : ∀ row ∈ rows, e.holds row = .ok (test row)) :
  select rows schema s p = .ok (passing test rows)
  := by
  have hkeep : e.keep rows = rows.filter test := by
    apply List.filter_congr
    intro row hrow
    rw [hholds row hrow]
  have hfailed : e.countFailed rows = 0 := by
    apply List.countP_eq_zero.mpr
    intro row hrow
    rw [hholds row hrow]
    simp
  rw [select_of_read h, hkeep, hfailed]
  rfl

end TableQuery.Filter
