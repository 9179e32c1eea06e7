import TableQuery.Proofs.Table.Loading
import TableQuery.Proofs.Table.StableSort
import TableQuery.Table.Sort

/-!
# Sorted tables

The cells of a column are missing or of one type, so a sort key is a total preorder on the rows of
a loaded table (`SortKey.isTotalPreorderOn_compare`), and sorting by it is the stable sort of the
rows (`sortRows_isStableSort`).
-/

namespace TableQuery

/-! ### The order of cells -/

namespace Value

variable {u v w : Value} {t : ColumnType}

theorem compareForSort_swap (v w : Value) :
  (v.compareForSort w).swap = w.compareForSort v
  := by
  cases v <;> cases w <;> exact Std.OrientedOrd.eq_swap.symm

/-- The order of values of one type is transitive. -/
theorem compareForSort_trans (hu : u.type? = some t) (hv : v.type? = some t)
    (hw : w.type? = some t) (huv : (u.compareForSort v).isLE = true)
    (hvw : (v.compareForSort w).isLE = true) :
  (u.compareForSort w).isLE = true
  := by
  -- Values of one type are made by one constructor.
  cases u <;> cases hu <;> cases v <;> cases hv <;> cases w <;> cases hw
  all_goals exact Std.TransOrd.isLE_trans huv hvw

theorem compareCells_of_ne_null (hv : v ≠ null) (hw : w ≠ null) :
  v.compareCells w = v.compareForSort w
  := by
  cases v <;> cases w <;> first | rfl | contradiction

/-- Only a missing cell stands where missing cells do. -/
theorem compareCells_null_eq_iff :
  null.compareCells w = .eq ↔ w = null
  := by
  cases w <;> simp [compareCells]

/-- No cell comes before a missing one. -/
theorem isLE_compareCells_null_iff :
  (v.compareCells null).isLE = true ↔ v = null
  := by
  cases v <;> simp [compareCells]

theorem compareCells_swap (v w : Value) :
  (v.compareCells w).swap = w.compareCells v
  := by
  by_cases hv : v = null
  · subst hv
    cases w <;> rfl
  · by_cases hw : w = null
    · subst hw
      cases v <;> rfl
    · rw [compareCells_of_ne_null hv hw, compareCells_of_ne_null hw hv, compareForSort_swap]

/-- The order of the cells of a column is transitive. -/
theorem compareCells_trans (hu : u = null ∨ u.type? = some t) (hv : v = null ∨ v.type? = some t)
    (hw : w = null ∨ w.type? = some t) (huv : (u.compareCells v).isLE = true)
    (hvw : (v.compareCells w).isLE = true) :
  (u.compareCells w).isLE = true
  := by
  by_cases hnull : u = null
  · subst hnull
    cases w <;> rfl
  · have hv' : v ≠ null := by
      rintro rfl
      apply hnull (isLE_compareCells_null_iff.mp huv)
    have hw' : w ≠ null := by
      rintro rfl
      apply hv' (isLE_compareCells_null_iff.mp hvw)
    rw [compareCells_of_ne_null hnull hv'] at huv
    rw [compareCells_of_ne_null hv' hw'] at hvw
    rw [compareCells_of_ne_null hnull hw']
    apply compareForSort_trans (hu.resolve_left hnull) (hv.resolve_left hv') (hw.resolve_left hw')
      huv hvw

end Value

/-! ### The order of rows -/

namespace SortKey

variable {rows : List Row} {key : SortKey} {name : String} {t : ColumnType}

theorem compare_swap (key : SortKey) (r s : Row) :
  (key.compare r s).swap = key.compare s r
  := by
  rw [compare, compare, ← Value.compareCells_swap (Row.cell r key.column)]
  cases key.direction <;> rfl

theorem compare_ascending (name : String) (r s : Row) :
  (SortKey.mk name .ascending).compare r s = (Row.cell r name).compareCells (Row.cell s name)
  := rfl

theorem compare_descending (name : String) (r s : Row) :
  (SortKey.mk name .descending).compare r s = (Row.cell s name).compareCells (Row.cell r name)
  := Value.compareCells_swap _ _

/-- On rows whose cells are missing or of one type a sort key is a total preorder. -/
theorem isTotalPreorderOn_compare (htyped : ∀ row ∈ rows,
    Row.cell row key.column = .null ∨ (Row.cell row key.column).type? = some t) :
  IsTotalPreorderOn key.compare rows
  := by
  constructor
  case swap => exact fun a _ b _ => compare_swap key a b
  case trans =>
    intro a ha b hb c hc hab hbc
    obtain ⟨name, direction⟩ := key
    cases direction with
    | ascending =>
      rw [compare_ascending] at hab hbc ⊢
      apply Value.compareCells_trans (htyped a ha) (htyped b hb) (htyped c hc) hab hbc
    | descending =>
      rw [compare_descending] at hab hbc ⊢
      apply Value.compareCells_trans (htyped c hc) (htyped b hb) (htyped a ha) hbc hab

/-- Whether a row has no value in a column. -/
def lacks (name : String) (row : Row) : Bool :=
  (Row.cell row name).isNull

theorem lacks_iff {row : Row} :
  lacks name row = true ↔ Row.cell row name = .null
  := Value.isNull_iff _

end SortKey

namespace IsStableSort

open SortKey

variable {rows sorted : List Row} {key : SortKey} (h : IsStableSort key.compare rows sorted)

include h

/-- The rows that have no value in the column of the key stay in their order. -/
theorem filter_lacks :
  sorted.filter (lacks key.column) = rows.filter (lacks key.column)
  := by
  apply h.filter_eq
  intro a _ ha b
  obtain ⟨name, direction⟩ := key
  rw [lacks_iff] at ha ⊢
  cases direction with
  | ascending => rw [compare_ascending, ha, Value.compareCells_null_eq_iff]
  | descending =>
    rw [compare_descending, ha, ← Value.compareCells_swap, Ordering.swap_eq_eq,
      Value.compareCells_null_eq_iff]

/-- In ascending order the rows without a value come first. -/
theorem eq_append_of_ascending (hdirection : key.direction = .ascending) :
  sorted = rows.filter (lacks key.column) ++ sorted.filter (!lacks key.column ·)
  := by
  rw [← h.filter_lacks]
  symm
  apply filter_append_filter_not_of_pairwise
  apply h.ordered.imp
  intro a b hle hb
  obtain ⟨name, direction⟩ := key
  cases hdirection
  rw [lacks_iff] at hb ⊢
  rw [compare_ascending, hb] at hle
  apply Value.isLE_compareCells_null_iff.mp hle

/-- In descending order the rows without a value come last. -/
theorem eq_append_of_descending (hdirection : key.direction = .descending) :
  sorted = sorted.filter (!lacks key.column ·) ++ rows.filter (lacks key.column)
  := by
  have hsplit : sorted.filter (!lacks key.column ·) ++ sorted.filter (!!lacks key.column ·)
      = sorted := by
    apply filter_append_filter_not_of_pairwise
    apply h.ordered.imp
    intro a b hle hb
    obtain ⟨name, direction⟩ := key
    cases hdirection
    rw [Bool.not_eq_true', ← Bool.not_eq_true, lacks_iff] at hb ⊢
    intro ha
    rw [compare_descending, ha] at hle
    apply hb (Value.isLE_compareCells_null_iff.mp hle)
  simp only [Bool.not_not] at hsplit
  rw [← h.filter_lacks, hsplit]

end IsStableSort

/-! ### Loaded tables -/

section Loaded

variable {names : List String} {table : List RawRow} {sampleSize : Nat} {d : Dataset}
  {rows : List Row} {key : SortKey}

/-- A sort key on a column of a loaded table is a total preorder on the rows of the table. -/
theorem Dataset.WellFormed.isTotalPreorderOn_compare (h : d.WellFormed)
    (hrows : ∀ row ∈ rows, row ∈ d.rows) (hkey : key.column ∈ d.headers) :
  IsTotalPreorderOn key.compare rows
  := by
  obtain ⟨t, -, htyped⟩ := h.typed key.column hkey
  apply SortKey.isTotalPreorderOn_compare (t := t)
  intro row hrow
  apply htyped row (hrows row hrow)

/-- By a column of a loaded table rows are sorted. -/
theorem sortRows_of_mem (loaded : Dataset.load names table sampleSize = .ok d)
    (hkey : key.column ∈ d.headers) (rows : List Row) :
  sortRows d.schema (some key) rows = rows.mergeSort fun a b => (key.compare a b).isLE
  := if_pos ((Dataset.contains_iff_mem_headers loaded).mpr hkey)

/-- Sorting rows of a loaded table by one of its columns is their only stable sort. -/
theorem isStableSort_iff_eq_sortRows (loaded : Dataset.load names table sampleSize = .ok d)
    (hrows : ∀ row ∈ rows, row ∈ d.rows) (hkey : key.column ∈ d.headers) {sorted : List Row} :
  IsStableSort key.compare rows sorted ↔ sorted = sortRows d.schema (some key) rows
  := by
  have hwell := Dataset.wellFormed_of_load loaded
  rw [sortRows_of_mem loaded hkey]
  apply isStableSort_iff (hwell.isTotalPreorderOn_compare hrows hkey)

/-- Sorting rows of a loaded table by one of its columns is a stable sort. -/
theorem isStableSort_sortRows (loaded : Dataset.load names table sampleSize = .ok d)
    (hrows : ∀ row ∈ rows, row ∈ d.rows) (hkey : key.column ∈ d.headers) :
  IsStableSort key.compare rows (sortRows d.schema (some key) rows)
  := (isStableSort_iff_eq_sortRows loaded hrows hkey).mpr rfl

/-- Rows are sorted in descending order as the reversed rows are in ascending order, read from the
end. -/
theorem sortRows_descending (loaded : Dataset.load names table sampleSize = .ok d) {name : String}
    (hrows : ∀ row ∈ rows, row ∈ d.rows) (hname : name ∈ d.headers) :
  sortRows d.schema (some ⟨name, .descending⟩) rows
    = (sortRows d.schema (some ⟨name, .ascending⟩) rows.reverse).reverse
  := by
  have hreversed : ∀ row ∈ rows.reverse, row ∈ d.rows := by
    intro row hrow
    apply hrows row (List.mem_reverse.mp hrow)
  have hascending : IsStableSort (SortKey.mk name .ascending).compare rows.reverse
      (sortRows d.schema (some ⟨name, .ascending⟩) rows.reverse) :=
    isStableSort_sortRows loaded hreversed hname
  symm
  apply (isStableSort_iff_eq_sortRows loaded hrows hname).mp
  apply hascending.reverse
  intro a _ b _
  apply SortKey.compare_swap

/-- On rows of a loaded table a key on one of its columns is a total preorder, and sorting by it is
their stable sort, the only one: the rows without a value come first in ascending order and last in
descending order.  Sorting again changes nothing, and rows are sorted in descending order as the
reversed rows are in ascending order, read from the end. -/
theorem sortRows_isStableSort (loaded : Dataset.load names table sampleSize = .ok d)
    (hrows : ∀ row ∈ rows, row ∈ d.rows) (hkey : key.column ∈ d.headers) :
  IsTotalPreorderOn key.compare rows ∧
  (∀ sorted, IsStableSort key.compare rows sorted ↔ sorted = sortRows d.schema (some key) rows) ∧
  (key.direction = .ascending →
    sortRows d.schema (some key) rows
      = rows.filter (SortKey.lacks key.column) ++
        (sortRows d.schema (some key) rows).filter (!SortKey.lacks key.column ·)) ∧
  (key.direction = .descending →
    sortRows d.schema (some key) rows
      = (sortRows d.schema (some key) rows).filter (!SortKey.lacks key.column ·) ++
        rows.filter (SortKey.lacks key.column)) ∧
  sortRows d.schema (some key) (sortRows d.schema (some key) rows)
    = sortRows d.schema (some key) rows ∧
  sortRows d.schema (some ⟨key.column, .descending⟩) rows
    = (sortRows d.schema (some ⟨key.column, .ascending⟩) rows.reverse).reverse
  := by
  have hsorted := isStableSort_sortRows loaded hrows hkey
  refine ⟨?preorder, fun _ => isStableSort_iff_eq_sortRows loaded hrows hkey,
    hsorted.eq_append_of_ascending, hsorted.eq_append_of_descending, ?again,
    sortRows_descending loaded hrows hkey⟩
  case preorder =>
    apply (Dataset.wellFormed_of_load loaded).isTotalPreorderOn_compare hrows hkey
  case again =>
    rw [sortRows_of_mem loaded hkey (sortRows d.schema (some key) rows)]
    apply List.mergeSort_of_pairwise hsorted.ordered

end Loaded

/-- Of four rows, two of which are alike in the column and one of which has no value there, this one
is last in descending order, and the other way round first. -/
theorem sortRows_isStableSort_of_tie :
  ∃ d, Dataset.load ["n", "m"] ([("2", "x"), ("", "y"), ("1", "z"), ("2", "w")].map
      fun (n, m) => .ofList [("n", n), ("m", m)]) 100 = .ok d ∧
    (∀ row ∈ d.rows, row ∈ d.rows) ∧ "n" ∈ d.headers ∧
    (sortRows d.schema (some ⟨"n", .descending⟩) d.rows).map (Row.cell · "m")
      = [.text "x", .text "w", .text "z", .text "y"] ∧
    (sortRows d.schema (some ⟨"n", .ascending⟩) d.rows.reverse).map (Row.cell · "m")
      = [.text "y", .text "z", .text "w", .text "x"]
  := by
  let record : String × String → RawRow := fun (n, m) => .ofList [("n", n), ("m", m)]
  let schema : Schema := ⟨["n", "m"], .ofList [("n", .integer), ("m", .string)]⟩
  let rows : List Row :=
    [("2", "x"), ("", "y"), ("1", "z"), ("2", "w")].map (coerce schema ∘ record)
  let sorted : List Row :=
    [("2", "x"), ("2", "w"), ("1", "z"), ("", "y")].map (coerce schema ∘ record)
  have hload : Dataset.load ["n", "m"] ([("2", "x"), ("", "y"), ("1", "z"), ("2", "w")].map record)
      100 = .ok ⟨schema, rows⟩ := by decide +kernel
  obtain ⟨-, hsort, -, -, -, hreversed⟩ :=
    @sortRows_isStableSort _ _ _ _ rows ⟨"n", .descending⟩ hload (fun _ h => h) (by decide)
  have hsorted : sorted = sortRows schema (some ⟨"n", .descending⟩) rows :=
    (hsort sorted).mp ⟨by decide +kernel, by decide +kernel, by decide +kernel⟩
  have hreversed' : sorted.reverse = sortRows schema (some ⟨"n", .ascending⟩) rows.reverse := by
    rw [hsorted, hreversed, List.reverse_reverse]
  refine ⟨⟨schema, rows⟩, hload, fun _ h => h, by decide, ?_, ?_⟩
  · rw [← hsorted]
    decide +kernel
  · rw [← hreversed']
    decide +kernel

end TableQuery
