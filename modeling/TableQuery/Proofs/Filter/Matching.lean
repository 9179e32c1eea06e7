import TableQuery.Proofs.Filter.Faults
import TableQuery.Proofs.Filter.Lexing
import TableQuery.Proofs.Filter.RoundTrip
import TableQuery.Proofs.Table.Loading

/-!
# What a filter selects

A filter text that is accepted is one expression for all rows, also if it is blank
(`exists_selection`), and this expression decides each row alone.  So a selection is the rows on
which it holds (`Expr.keep_eq_filter`), the selections of two lists of rows make up that of both
(`Expr.selection_append`), and selecting again changes nothing (`Expr.selection_keep`).  The
expression names columns only (`mem_of_column_mem_leaves`), which the rows of a loaded table all
have.  A text that has no token is blank (`isBlank_of_read_empty`), so no selection fails for want
of an expression.
-/

namespace TableQuery.Filter

/-- The counts of two selections together. -/
instance : Add Stats :=
  ⟨fun s t => ⟨s.scanned + t.scanned, s.matched + t.matched, s.failed + t.failed⟩⟩

namespace Expr

variable {e : Expr} {rows more : List Row}

/-! ### Selections by an expression -/

/-- The rows that satisfy an expression, and the counts. -/
def selection (e : Expr) (rows : List Row) : List Row × Stats :=
  (e.keep rows, ⟨rows.length, (e.keep rows).length, e.countFailed rows⟩)

theorem keep_eq_filter (e : Expr) (rows : List Row) :
  e.keep rows = rows.filter fun row => e.holds row = .ok true
  := by
  apply List.filter_congr
  intro row _
  cases e.holds row <;> simp

theorem countFailed_eq_countP (e : Expr) (rows : List Row) :
  e.countFailed rows = rows.countP fun row => !(e.holds row).isOk
  := by
  apply List.countP_congr
  intro row _
  cases e.holds row <;> simp [Except.isOk, Except.toBool]

/-- A row satisfies an expression, or the expression fails on it, or does not hold of it. -/
theorem length_keep_add (e : Expr) (rows : List Row) :
  (e.keep rows).length + e.countFailed rows + rows.countP (fun row => e.holds row = .ok false)
    = rows.length
  := by
  induction rows with
  | nil => rfl
  | cons row rows ih =>
    simp only [keep, countFailed, List.filter_cons, List.countP_cons, List.length_cons] at ih ⊢
    rcases e.holds row with err | (b | b) <;> simp <;> omega

/-- Two lists of rows are selected from one by one. -/
theorem selection_append (e : Expr) (front back : List Row) :
  e.selection (front ++ back)
    = ((e.selection front).1 ++ (e.selection back).1, (e.selection front).2 + (e.selection back).2)
  := by
  have hkeep : e.keep (front ++ back) = e.keep front ++ e.keep back :=
    List.filter_append front back
  have hfailed : e.countFailed (front ++ back) = e.countFailed front + e.countFailed back :=
    List.countP_append
  simp only [selection, hkeep, hfailed, List.length_append]
  rfl

/-- Of rows that satisfy the expression all are selected. -/
theorem selection_keep (e : Expr) (rows : List Row) :
  e.selection (e.keep rows) = (e.keep rows, ⟨(e.keep rows).length, (e.keep rows).length, 0⟩)
  := by
  have hkeep : e.keep (e.keep rows) = e.keep rows := by
    simp only [keep, List.filter_filter, Bool.and_self]
  have hfailed : e.countFailed (e.keep rows) = 0 := by
    apply List.countP_eq_zero.mpr
    intro row hrow
    have hholds := List.of_mem_filter hrow
    cases hresult : e.holds row <;> simp_all
  rw [selection, hkeep, hfailed]

end Expr

variable {s : String} {schema : Schema} {columns : List String} {p : Policy} {e : Expr}

/-- Only a filter that is not blank fails, and it does so when it is read. -/
theorem read_of_select_error {rows : List Row} {err : FilterError}
    (h : select rows schema s p = .error err) :
  Text.isBlank s = false ∧ read s schema.headers p = .error err
  := by
  cases hblank : Text.isBlank s with
  | true => simp [select, hblank] at h
  | false =>
    cases hread : read s schema.headers p with
    | ok e =>
      rw [select_of_read hread] at h
      cases h
    | error err' =>
      rw [select, hblank, hread] at h
      cases h
      exact ⟨rfl, rfl⟩

/-- A filter that is accepted for some rows selects by one expression from all. -/
theorem exists_selection {rows kept : List Row} {stats : Stats}
    (h : select rows schema s p = .ok (kept, stats)) :
  ∃ e : Expr, ∀ rows, select rows schema s p = .ok (e.selection rows)
  := by
  cases hblank : Text.isBlank s with
  | true =>
    -- A blank filter selects as an expression that is true of every row.
    use .literal (.bool true)
    intro rows
    simp [select, hblank, Expr.selection, Expr.keep, Expr.countFailed, Expr.holds, Expr.value,
      isTruthy, Except.map]
  | false =>
    cases hread : read s schema.headers p with
    | ok e => exact ⟨e, fun rows => select_of_read hread⟩
    | error err =>
      rw [select, hblank, hread] at h
      cases h

/-! ### Reading -/

/-- The columns of an expression that was read are columns of the table. -/
theorem mem_of_column_mem_leaves {name : String} {position : Nat}
    (h : read s columns p = .ok e) (hleaf : .column name position ∈ e.leaves) :
  name ∈ columns
  := by
  have hreadable := (isNormalOver_of_read h).1.2 _ hleaf
  simp only [Expr.isReadableOver, Bool.and_eq_true, List.contains_iff_mem] at hreadable
  apply hreadable.2

/-- A reading of tokens that a text has misses an expression only if there is none. -/
theorem isEnd_of_parse_empty {tokens : List Token} (htokens : tokenize s = .ok tokens)
    (h : parse tokens columns p = .error .empty) :
  (tokens.head?.getD (endOf tokens)).isEnd = true
  := by
  by_contra hnonempty
  have hread := areRead_of_tokenize htokens
  rw [Bool.not_eq_true] at hnonempty
  rw [← List.nil_append tokens] at h hnonempty hread
  obtain ⟨us, rest, state, hsplit, hsteps, hblocks⟩ :=
    exists_blocks_of_steps hnonempty (.nil .start) h
  rw [List.nil_append, hsplit] at hread
  obtain ⟨t, more, rfl⟩ := hread.exists_cons_of_steps hsteps
  -- Every other error is found at a token.
  cases (hblocks t rfl).token?_eq

/-- White space between tokens is blank. -/
theorem isBlankChar_of_lexes_nil {start : Nat} {cs rest : List Char} (h : Lexes start cs rest []) :
  ∀ c ∈ cs, Text.isBlankChar c = true
  := by
  cases h with
  | gaps hgaps =>
    intro c hc
    have hall : [' ', '\t', '\r', '\n'].all Text.isBlankChar = true := by decide +kernel
    apply List.all_eq_true.mp hall c (isGap_iff_mem.mp (hgaps c hc))

/-- A text in which there is no expression is blank. -/
theorem isBlank_of_read_empty (h : read s columns p = .error (.parse .empty)) :
  Text.isBlank s = true
  := by
  cases htokens : tokenize s with
  | error err =>
    rw [read, htokens] at h
    cases h
  | ok tokens =>
    have hparse : parse tokens columns p = .error .empty := by
      rw [read, htokens] at h
      cases hresult : parse tokens columns p with
      | ok e => simp [hresult, Except.mapError] at h
      | error err => simpa [hresult, Except.mapError] using h
    have hend := isEnd_of_parse_empty htokens hparse
    obtain ⟨body, rfl, hlexes⟩ := tokenize_eq_ok_iff_lexes.mp htokens
    cases body with
    | nil => apply List.all_eq_true.mpr (isBlankChar_of_lexes_nil hlexes)
    | cons t body =>
      have ht : t.isEnd = false := (hlexes.isRead t List.mem_cons_self).notEnd
      rw [List.cons_append, List.head?_cons, Option.getD_some, ht] at hend
      cases hend

/-- A selection never fails for want of an expression. -/
theorem select_ne_empty (rows : List Row) (schema : Schema) (s : String) (p : Policy) :
  select rows schema s p ≠ .error (.parse .empty)
  := by
  intro h
  obtain ⟨hblank, hread⟩ := read_of_select_error h
  rw [isBlank_of_read_empty hread] at hblank
  cases hblank

/-! ### Selections from loaded tables -/

/-- A text that is accepted as a filter selects from a loaded table exactly the rows on which it
holds, in their order, and counts each row once: as selected, as one on which it fails, or as one on
which it does not hold.  All its columns are columns of the table, which each row has.  What any
filter selects it selects again without a failure, it selects from two parts of the table one by
one, and it never fails for want of an expression. -/
theorem select_of_loaded {names : List String} {table : List RawRow} {sampleSize : Nat}
    {d : Dataset} (loaded : Dataset.load names table sampleSize = .ok d) (filter : String)
    (p : Policy) :
  (∀ e, read filter d.headers p = .ok e →
    let kept := d.rows.filter fun row => e.holds row = .ok true
    let failed := d.rows.countP fun row => !(e.holds row).isOk
    select d.rows d.schema filter p = .ok (kept, ⟨d.rows.length, kept.length, failed⟩) ∧
      kept.length + failed + d.rows.countP (fun row => e.holds row = .ok false) = d.rows.length ∧
      ∀ name position, .column name position ∈ e.leaves →
        name ∈ d.headers ∧ ∀ row ∈ d.rows, Record.get? row name = some (Row.cell row name)) ∧
  (∀ kept stats, select d.rows d.schema filter p = .ok (kept, stats) →
    select kept d.schema filter p = .ok (kept, ⟨kept.length, kept.length, 0⟩) ∧
      ∀ front back, d.rows = front ++ back →
        ∃ first s₁ last s₂, select front d.schema filter p = .ok (first, s₁) ∧
          select back d.schema filter p = .ok (last, s₂) ∧
          kept = first ++ last ∧ stats = s₁ + s₂) ∧
  select d.rows d.schema filter p ≠ .error (.parse .empty)
  := by
  refine ⟨fun e hread => ⟨?_, ?_, ?_⟩, fun kept stats hselect => ?_, select_ne_empty _ _ _ _⟩
  · rw [← Expr.keep_eq_filter, ← Expr.countFailed_eq_countP]
    apply select_of_read hread
  · rw [← Expr.keep_eq_filter, ← Expr.countFailed_eq_countP]
    apply e.length_keep_add
  · intro name position hleaf
    have hname : name ∈ d.headers := mem_of_column_mem_leaves hread hleaf
    refine ⟨hname, fun row hrow => ?_⟩
    have hcontains := ((Dataset.wellFormed_of_load loaded).contains_iff row hrow name).mpr hname
    obtain ⟨v, hv⟩ := Option.isSome_iff_exists.mp hcontains
    rw [Row.cell, hv, Option.getD_some]
  · obtain ⟨e, he⟩ := exists_selection hselect
    obtain ⟨rfl, rfl⟩ := Prod.mk.inj (Except.ok.inj ((he d.rows).symm.trans hselect))
    refine ⟨?_, fun front back hsplit => ?_⟩
    · rw [he, Expr.selection_keep]
    · have happend := e.selection_append front back
      rw [← hsplit] at happend
      exact ⟨_, _, _, _, he front, he back, (Prod.mk.inj happend).1, (Prod.mk.inj happend).2⟩

/-- Of an integer and a missing cell the filter fails on the first one and holds of the second. -/
theorem select_of_loaded_of_missing :
  ∃ d e kept, Dataset.load ["n"] (["3", ""].map fun n => .ofList [("n", n)]) 100 = .ok d ∧
    read "n == null OR n contains \"x\"" d.headers .strict = .ok e ∧
    kept = d.rows.filter (fun row => e.holds row = .ok true) ∧
    select d.rows d.schema "n == null OR n contains \"x\"" .strict = .ok (kept, ⟨2, 1, 1⟩) ∧
    select kept d.schema "n == null OR n contains \"x\"" .strict = .ok (kept, ⟨1, 1, 0⟩)
  := by
  let d : Dataset := ⟨.inferred ["n"] (["3", ""].map fun n => .ofList [("n", n)]) 100,
    (["3", ""].map fun n => .ofList [("n", n)]).map
      (coerce (.inferred ["n"] (["3", ""].map fun n => .ofList [("n", n)]) 100))⟩
  have hload : Dataset.load ["n"] (["3", ""].map fun n => .ofList [("n", n)]) 100 = .ok d :=
    Dataset.load_of_nodup (by decide) (by decide) (by decide)
  obtain ⟨e, hread⟩ : ∃ e, read "n == null OR n contains \"x\"" d.headers .strict = .ok e :=
    exists_read_of_isOk (by decide +kernel)
  have hstats : (select d.rows d.schema "n == null OR n contains \"x\"" .strict).map Prod.snd
      = .ok ⟨2, 1, 1⟩ := by
    decide +kernel
  obtain ⟨hreads, hagain, -⟩ := select_of_loaded hload "n == null OR n contains \"x\"" .strict
  obtain ⟨hselect, -, -⟩ := hreads e hread
  rw [hselect] at hstats
  obtain ⟨hscanned, hmatched, hfailed⟩ := Stats.mk.inj (Except.ok.inj hstats)
  rw [hscanned, hmatched, hfailed] at hselect
  have hkept := (hagain _ _ hselect).1
  rw [hmatched] at hkept
  exact ⟨d, e, _, hload, hread, rfl, hselect, hkept⟩

end TableQuery.Filter
