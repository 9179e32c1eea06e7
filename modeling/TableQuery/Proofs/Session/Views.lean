import Mathlib.Data.List.Perm.Basic
import TableQuery.Proofs.Filter.Selection
import TableQuery.Session.Basic
import TableQuery.Proofs.Csv.Cells
import TableQuery.Proofs.Table.Pages

/-!
# Views and exports

The pages of a view and an export show the same rows.  `Filter.select` keeps a sublist of the
rows of a table, whatever the filter; `sortRows` puts it into an order; and the pages are
stretches of the sorted list, of one size between one and the largest one of the policy
(`Session.view_eq`).  An export writes the list before it is sorted (`Session.exportRows_eq`), and
what it has written is read back as the cells of the list.
-/

namespace TableQuery

/-- What a policy without a flaw is. -/
theorem Policy.flaw?_eq_none_iff {p : Policy} :
  p.flaw? = none
    ↔ p.sampleSize ≠ 0 ∧ p.maxDepth ≠ 0 ∧ (p.defaultPageSize ≠ 0 ∧ p.maxPageSize ≠ 0) ∧
      p.defaultPageSize ≤ p.maxPageSize
  := by
  simp only [flaw?, ite_eq_iff, reduceCtorEq, and_false, false_or, and_true, not_or,
    UInt64.not_lt]

/-- Under a policy without a flaw pages have at least one row and at most as many as the policy
admits. -/
theorem Policy.pageSize_bounds {p : Policy} (h : p.flaw? = none) (size? : Option UInt64) :
  p.pageSize size? ≠ 0 ∧ p.pageSize size? ≤ p.maxPageSize
  := by
  obtain ⟨-, -, ⟨hdefault, hmax⟩, hle⟩ := flaw?_eq_none_iff.mp h
  cases size? with
  | none => exact ⟨hdefault, hle⟩
  | some size =>
    rw [pageSize]
    split
    · exact ⟨hdefault, hle⟩
    · next hsize =>
      have hmin : min size p.maxPageSize
          = if size ≤ p.maxPageSize then size else p.maxPageSize := rfl
      rw [hmin]
      split
      · next hsmall => exact ⟨hsize, hsmall⟩
      · exact ⟨hmax, UInt64.le_refl _⟩

/-- Sorting moves rows about. -/
theorem sortRows_perm (schema : Schema) (key? : Option SortKey) (rows : List Row) :
  (sortRows schema key? rows).Perm rows
  := by
  cases key? with
  | none => apply List.Perm.refl
  | some key =>
    rw [sortRows]
    split
    · apply List.mergeSort_perm
    · apply List.Perm.refl

/-- Rows stay in place unless they are sorted by a column of the schema. -/
theorem sortRows_of_unknown {schema : Schema} {key? : Option SortKey} (rows : List Row)
    (h : ∀ key ∈ key?, schema.contains key.column = false) :
  sortRows schema key? rows = rows
  := by
  cases key? with
  | none => rfl
  | some key => simp [sortRows, h key rfl]

namespace Filter

variable {rows : List Row} {schema : Schema} {filter : String} {p : Policy}

/-- A filter that is blank or can be read keeps a sublist of the rows, and counts it. -/
theorem exists_select_eq_ok
    (h : Text.isBlank filter = true ∨ ∃ e, read filter schema.headers p = .ok e) :
  ∃ kept stats, select rows schema filter p = .ok (kept, stats) ∧ kept.Sublist rows ∧
    stats.matched = kept.length
  := by
  rcases h with hblank | ⟨e, he⟩
  · use rows, ⟨rows.length, rows.length, 0⟩
    simp [select, hblank]
  · use e.keep rows, ⟨rows.length, (e.keep rows).length, e.countFailed rows⟩
    simp [select_of_read he, Expr.keep]

end Filter

namespace Session

variable {s : Session} {d : Dataset} {filter : String} {rows : List Row} {stats : Filter.Stats}

theorem exportRows_eq (held : s.dataset? = some d)
    (hselect : Filter.select d.rows d.schema filter s.policy = .ok (rows, stats)) :
  s.exportRows filter = .ok (Csv.write d.headers rows, rows.length)
  := by
  simp [exportRows, loaded, held, matching, hselect, bind, Except.bind, Except.mapError, pure,
    Except.pure]

/-- Page `index` of the rows `all` in pages of `size` rows, as it is shown. -/
def pageView (d : Dataset) (stats : Filter.Stats) (all : List Row) (size index : UInt64) : View where
  headers := d.headers
  page :=
    { content := (all.drop (index.toNat * size.toNat)).take size.toNat
      index, size, total := all.length }
  stats

/-- Every page can be shown: it is a stretch of the sorted rows. -/
theorem view_eq (held : s.dataset? = some d)
    (hselect : Filter.select d.rows d.schema filter s.policy = .ok (rows, stats))
    (hrows : rows.length ≤ largestWord) {size? : Option UInt64}
    (hsize : s.policy.pageSize size? ≠ 0) (sort? : Option SortKey) (index : UInt64) :
  s.view ⟨filter, sort?, index, size?⟩
    = .ok (pageView d stats (sortRows d.schema sort? rows) (s.policy.pageSize size?) index)
  := by
  have hlength : (sortRows d.schema sort? rows).length ≤ largestWord := by
    rwa [(sortRows_perm d.schema sort? rows).length_eq]
  have hslice := Page.slice?_eq hsize hlength index
  simp [view, loaded, held, matching, hselect, bind, Except.bind, Except.mapError, hslice,
    pageView]

/-- The pages that a session shows of its table `d` for a filter, a sort key and a size, and what
it exports for the filter: page `i` is the stretch number `i` of the list `all`, the pages up to
the last one make up `all`, and `all` is an order of the list `written` that is exported, the same
one unless it is sorted by a column of the table.  The text of the export is read back as the
cells of `written`; if the first column name starts with a byte order mark, it takes another mark
before the text, since one is skipped. -/
structure PagesAgree (s : Session) (d : Dataset) (filter : String) (sort? : Option SortKey)
    (size? : Option UInt64) (size : UInt64) (all written : List Row) (page : UInt64 → View) :
    Prop where
  one_le_size : 1 ≤ size
  size_le : size ≤ s.policy.maxPageSize
  view_eq : ∀ i, s.view ⟨filter, sort?, i, size?⟩ = .ok (page i)
  page_size : ∀ i, (page i).page.size = size
  page_content : ∀ i,
    (page i).page.content = (all.drop (i.toNat * size.toNat)).take size.toNat
  pages : ((List.range (page 0).page.count).flatMap fun i => (page (.ofNat i)).page.content) = all
  exported : s.exportRows filter = .ok (Csv.write d.headers written, written.length)
  reads_back : (∀ name ∈ d.headers.head?, name.toList.head? ≠ some (Char.ofNat 0xFEFF)) →
    Csv.ReadsAs (Text.encode (Csv.write d.headers written)) d.headers written
  reads_back_marked :
    Csv.ReadsAs (Csv.byteOrderMark ++ Text.encode (Csv.write d.headers written)) d.headers written
  sublist : written.Sublist d.rows
  perm : all.Perm written
  in_place : (∀ key ∈ sort?, key.column ∉ d.headers) → all = written
  total : ∀ i, (page i).page.total = all.length ∧ (page i).stats.matched = all.length ∧
    written.length = all.length

/-- Stretches that are told apart by words are told apart by numbers. -/
theorem flatMap_range_ofNat {α : Type} {n : Nat} (hn : n ≤ largestWord) (f : Nat → List α) :
  ((List.range n).flatMap fun i => f (UInt64.ofNat i).toNat) = (List.range n).flatMap f
  := by
  apply List.flatMap_congr
  intro i hi
  have hword : largestWord < UInt64.size := by decide
  have hi : i < n := List.mem_range.mp hi
  rw [UInt64.toNat_ofNat_of_lt' (by omega)]

/-- If a table is loaded under a policy without a flaw, which is small enough for its rows to be
counted, then for every filter that is blank or can be read all pages can be shown, and they
agree with what is exported. -/
theorem pages_agree_with_export {names : List String} {table : List RawRow} {sampleSize : Nat}
    (loaded : Dataset.load names table sampleSize = .ok d) (held : s.dataset? = some d)
    (fits : d.rows.length ≤ largestWord) (valid : s.policy.flaw? = none)
    (readable : Text.isBlank filter = true ∨
      ∃ e, Filter.read filter d.headers s.policy = .ok e)
    (sort? : Option SortKey) (size? : Option UInt64) :
  ∃ size all written page, PagesAgree s d filter sort? size? size all written page
  := by
  obtain ⟨written, stats, hselect, hsublist, hmatched⟩ :
      ∃ kept stats, Filter.select d.rows d.schema filter s.policy = .ok (kept, stats) ∧
        kept.Sublist d.rows ∧ stats.matched = kept.length :=
    Filter.exists_select_eq_ok readable
  have hlength : written.length ≤ largestWord := Nat.le_trans hsublist.length_le fits
  have hperm := sortRows_perm d.schema sort? written
  obtain ⟨hheaders, hnodup, -, hd⟩ := Dataset.load_eq_ok_iff.mp loaded
  obtain ⟨hsize, hmax⟩ := Policy.pageSize_bounds valid size?
  have hpos : 0 < (s.policy.pageSize size?).toNat :=
    Nat.pos_of_ne_zero fun h => hsize (UInt64.toNat_inj.mp h)
  let size := s.policy.pageSize size?
  let all := sortRows d.schema sort? written
  use size, all, written, pageView d stats all size
  constructor
  case one_le_size => exact UInt64.le_iff_toNat_le.mpr hpos
  case size_le => apply hmax
  case view_eq => apply view_eq held hselect hlength hsize
  case page_size => exact fun _ => rfl
  case page_content => exact fun _ => rfl
  case pages =>
    have hcount : (pageView d stats all size 0).page.count ≤ largestWord := by
      apply Nat.le_trans (Page.count_le_total _)
      rwa [← hperm.length_eq] at hlength
    apply Eq.trans (flatMap_range_ofNat hcount fun i => (all.drop (i * size.toNat)).take size.toNat)
    apply Page.flatMap_pages all (Nat.ne_of_gt hpos)
  case exported => apply exportRows_eq held hselect
  case reads_back =>
    intro hmark
    subst hd
    apply Csv.readsAs_of_read hnodup (Csv.read_write hheaders hmark written)
  case reads_back_marked =>
    subst hd
    apply Csv.readsAs_of_read hnodup (Csv.read_mark_write hheaders written)
  case sublist => apply hsublist
  case perm => apply hperm
  case in_place =>
    intro hunknown
    subst hd
    apply sortRows_of_unknown
    intro key hkey
    rw [← Bool.not_eq_true, contains_inferred]
    apply hunknown key hkey
  case total =>
    intro i
    exact ⟨rfl, hmatched.trans hperm.length_eq.symm, hperm.length_eq.symm⟩

/-- Three rows, of which a filter keeps two, on pages of one row in descending order. -/
theorem pages_agree_with_export_of_three :
  ∃ d, Dataset.load ["n"] (["3", "1", "2"].map fun n => .ofList [("n", n)]) 100 = .ok d ∧
    d.rows.length ≤ largestWord ∧ Policy.strict.flaw? = none ∧
    (∃ e, Filter.read "n > 1" d.headers .strict = .ok e) ∧
    ∃ size all written page, PagesAgree ⟨.strict, some d⟩ d "n > 1" (some ⟨"n", .descending⟩)
      (some 1) size all written page
  := by
  have hload := @Dataset.load_of_nodup ["n"] (["3", "1", "2"].map fun n => .ofList [("n", n)]) 100
    (by decide) (by decide) (by decide)
  have hread : ∃ e, Filter.read "n > 1" ["n"] .strict = .ok e :=
    Filter.exists_read_of_isOk (by decide +kernel)
  refine ⟨_, hload, by decide, by decide, hread, ?_⟩
  exact pages_agree_with_export hload rfl (by decide) (by decide) (.inr hread) _ _

end Session

end TableQuery
