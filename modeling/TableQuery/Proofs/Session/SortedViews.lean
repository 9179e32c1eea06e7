import TableQuery.Proofs.Filter.Matching
import TableQuery.Proofs.Session.Views
import TableQuery.Proofs.Table.Sorting

/-!
# Sorting and filtering

A filter decides each row alone, and a stable sort of some rows of a table is what a stable sort of
all rows leaves of them.  So a table is filtered and sorted in any order
(`Filter.Expr.selection_sortRows`), and a view shows the pages of a filtered sorted table
(`Session.view_of_sorted`).
-/

namespace TableQuery

variable {names : List String} {table : List RawRow} {sampleSize : Nat} {d : Dataset}

/-- The sort of the rows that pass a test is what the sort of all rows leaves of them. -/
theorem filter_sortRows (loaded : Dataset.load names table sampleSize = .ok d)
    (sort? : Option SortKey) (p : Row → Bool) :
  (sortRows d.schema sort? d.rows).filter p = sortRows d.schema sort? (d.rows.filter p)
  := by
  by_cases hknown : ∃ key ∈ sort?, key.column ∈ d.headers
  · obtain ⟨key, rfl, hkey⟩ := hknown
    have hsorted : IsStableSort key.compare d.rows (sortRows d.schema (some key) d.rows) :=
      isStableSort_sortRows loaded (fun _ h => h) hkey
    apply (isStableSort_iff_eq_sortRows loaded (fun _ => List.mem_of_mem_filter) hkey).mp
    apply hsorted.filter
  · have hunknown : ∀ key ∈ sort?, d.schema.contains key.column = false := by
      intro key hkey
      rw [← Bool.not_eq_true, Dataset.contains_iff_mem_headers loaded]
      exact fun hmem => hknown ⟨key, hkey, hmem⟩
    rw [sortRows_of_unknown _ hunknown, sortRows_of_unknown _ hunknown]

/-- An expression selects the same rows from a sorted table as are sorted after it has selected
them, and counts the same. -/
theorem Filter.Expr.selection_sortRows (loaded : Dataset.load names table sampleSize = .ok d)
    (sort? : Option SortKey) (e : Filter.Expr) :
  e.selection (sortRows d.schema sort? d.rows)
    = (sortRows d.schema sort? (e.selection d.rows).1, (e.selection d.rows).2)
  := by
  have hperm := sortRows_perm d.schema sort? d.rows
  have hkeep : e.keep (sortRows d.schema sort? d.rows)
      = sortRows d.schema sort? (e.keep d.rows) :=
    filter_sortRows loaded sort? _
  have hlength := (sortRows_perm d.schema sort? (e.keep d.rows)).length_eq
  have hfailed : e.countFailed (sortRows d.schema sort? d.rows) = e.countFailed d.rows :=
    hperm.countP_eq _
  rw [selection, selection, hkeep, hperm.length_eq, hlength, hfailed]

/-- The views of a session are the pages of the rows that a filter keeps, sorted. -/
theorem Session.view_eq_ok_iff {p : Policy} {filter : String} {rows : List Row}
    {stats : Filter.Stats} (hselect : Filter.select d.rows d.schema filter p = .ok (rows, stats))
    {sort? : Option SortKey} {index : UInt64} {size? : Option UInt64} {view : View} :
  (Session.mk p (some d)).view ⟨filter, sort?, index, size?⟩ = .ok view
    ↔ ∃ page, Page.slice? (sortRows d.schema sort? rows) index (p.pageSize size?) = some page ∧
        view = ⟨d.headers, page, stats⟩
  := by
  simp only [Session.view, loaded, matching, hselect, bind, Except.bind, Except.mapError]
  cases Page.slice? (sortRows d.schema sort? rows) index (p.pageSize size?) <;> simp [eq_comm]

/-- For every filter that is blank or can be read, filtering the sorted rows of a loaded table gives
the same rows in the same order, and the same counts, as sorting the filtered rows, and these are
the rows of which every view is a page. -/
theorem Session.view_of_sorted (loaded : Dataset.load names table sampleSize = .ok d)
    {filter : String} {p : Policy}
    (readable : Text.isBlank filter = true ∨ ∃ e, Filter.read filter d.headers p = .ok e)
    (sort? : Option SortKey) :
  ∃ kept stats, Filter.select d.rows d.schema filter p = .ok (kept, stats) ∧
    Filter.select (sortRows d.schema sort? d.rows) d.schema filter p
      = .ok (sortRows d.schema sort? kept, stats) ∧
    ∀ index size? view, (Session.mk p (some d)).view ⟨filter, sort?, index, size?⟩ = .ok view
      ↔ ∃ page, Page.slice? (sortRows d.schema sort? kept) index (p.pageSize size?) = some page ∧
          view = ⟨d.headers, page, stats⟩
  := by
  obtain ⟨kept, stats, hselect, -, -⟩ := @Filter.exists_select_eq_ok d.rows _ _ _ readable
  obtain ⟨e, he⟩ := Filter.exists_selection hselect
  obtain ⟨rfl, rfl⟩ := Prod.mk.inj (Except.ok.inj ((he d.rows).symm.trans hselect))
  refine ⟨_, _, hselect, ?sorted, fun _ _ _ => view_eq_ok_iff hselect⟩
  rw [he, Filter.Expr.selection_sortRows loaded]
  rfl

/-- Of four rows a filter keeps three, two of them alike in the column of the key. -/
theorem Session.view_of_sorted_of_tie :
  ∃ d kept stats, Dataset.load ["n"] (["2", "1", "", "2"].map fun n => .ofList [("n", n)]) 100
      = .ok d ∧
    (∃ e, Filter.read "n >= 1" d.headers .strict = .ok e) ∧
    kept.map (Row.cell · "n") = [.int 2, .int 1, .int 2] ∧ stats = ⟨4, 3, 0⟩ ∧
    Filter.select (sortRows d.schema (some ⟨"n", .descending⟩) d.rows) d.schema "n >= 1" .strict
      = .ok (sortRows d.schema (some ⟨"n", .descending⟩) kept, stats)
  := by
  let schema : Schema := ⟨["n"], .ofList [("n", .integer)]⟩
  let rows : List Row := ["2", "1", "", "2"].map fun n => coerce schema (.ofList [("n", n)])
  have hload : Dataset.load ["n"] (["2", "1", "", "2"].map fun n => .ofList [("n", n)]) 100
      = .ok ⟨schema, rows⟩ := by decide +kernel
  have hread : ∃ e, Filter.read "n >= 1" ["n"] .strict = .ok e :=
    Filter.exists_read_of_isOk (by decide +kernel)
  have hshown : (Filter.select rows schema "n >= 1" .strict).map
      (fun s => (s.1.map (Row.cell · "n"), s.2)) = .ok ([.int 2, .int 1, .int 2], ⟨4, 3, 0⟩) := by
    decide +kernel
  obtain ⟨kept, stats, hselect, hsorted, -⟩ :=
    view_of_sorted hload (.inr hread) (some ⟨"n", .descending⟩)
  rw [hselect] at hshown
  obtain ⟨hkept, hstats⟩ := Prod.mk.inj (Except.ok.inj hshown)
  exact ⟨_, kept, stats, hload, hread, hkept, hstats, hsorted⟩

end TableQuery
