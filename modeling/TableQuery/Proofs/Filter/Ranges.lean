import TableQuery.Proofs.Filter.Coherence
import TableQuery.Proofs.Filter.Integers
import TableQuery.Proofs.Table.Sorting

/-!
# Filters on sorted columns

A sort orders the cells of a column of numbers exactly, and a filter compares them with a number as
doubles.  Both leave the places of the cells in order (`Value.place_le_of_compareForSort`), so in a
sorted table the rows before a number come first, then those equal to it, then those after it
(`select_of_sorted`).
-/

namespace TableQuery

/-- Doubles in their total order have their places in order. -/
theorem Binary64.place_le_of_rank_le {x y : Binary64} (h : x.rank ≤ y.rank) :
  x.place ≤ y.place
  := by
  simp only [rank] at h
  simp only [place, isNaN, decide_eq_true_eq, rank, signed]
  grind

/-! ### Cells and a number -/

namespace Value

variable {u v : Value} {t : ColumnType} {x : Binary64}

theorem isNumeric_of_type? (hv : v.type? = some t) (ht : t = .integer ∨ t = .float) :
  v.isNumeric = true
  := by
  cases v <;> cases hv <;> first | rfl | cases ht <;> contradiction

/-- Values of one type of numbers that a sort has put in order have their places in order. -/
theorem place_le_of_compareForSort (hu : u.type? = some t) (hv : v.type? = some t)
    (ht : t = .integer ∨ t = .float) (h : (u.compareForSort v).isLE = true) :
  u.place ≤ v.place
  := by
  rcases ht with rfl | rfl
  · cases u with
    | int i =>
      cases v with
      | int j =>
        have horder : (int i).order (int j) ≠ .gt := Ordering.isLE_iff_ne_gt.mp h
        apply place_le_of_order rfl rfl horder
      | _ => cases hv
    | _ => cases hu
  · cases u with
    | float x =>
      cases v with
      | float y => apply Binary64.place_le_of_rank_le (Std.isLE_compare.mp h)
      | _ => cases hv
    | _ => cases hu

/-- On which side of a double a cell of a column of numbers stands.  A missing one stands before
every double. -/
def sideOf (x : Binary64) (v : Value) : Ordering :=
  if v = null then .lt else v.order (float x)

/-- A filter finds a cell of a column of numbers on its side of a double. -/
theorem ordered_sideOf (hv : v = null ∨ v.type? = some t) (ht : t = .integer ∨ t = .float) :
  v.Ordered (float x) (v.sideOf x)
  := by
  rw [sideOf]
  split
  · next hnull =>
    subst hnull
    apply Ordered.before
    exact fun h => nomatch h
  · next hnull =>
    apply Ordered.numbers _ rfl
    apply isNumeric_of_type? (hv.resolve_left hnull) ht

/-- A numeric value stands to a double as its place does. -/
theorem order_float (hv : v.isNumeric = true) :
  v.order (float x) = compare v.place x.place
  := by
  rcases int_or_float_of_isNumeric hv with ⟨i, rfl⟩ | ⟨y, rfl⟩ <;> rfl

/-- Of cells that a sort has put in order the second one comes before a double only if the first one
does, and the first one after it only if the second one does. -/
theorem sideOf_mono (hu : u = null ∨ u.type? = some t) (hv : v = null ∨ v.type? = some t)
    (ht : t = .integer ∨ t = .float) (h : (u.compareCells v).isLE = true) :
  (v.sideOf x = .lt → u.sideOf x = .lt) ∧ (u.sideOf x = .gt → v.sideOf x = .gt)
  := by
  by_cases hnull : u = null
  · simp [sideOf, hnull]
  · have hnull' : v ≠ null := by
      rintro rfl
      apply hnull (isLE_compareCells_null_iff.mp h)
    have hu := hu.resolve_left hnull
    have hv := hv.resolve_left hnull'
    rw [compareCells_of_ne_null hnull hnull'] at h
    have hplaces := place_le_of_compareForSort hu hv ht h
    rw [sideOf, sideOf, if_neg hnull, if_neg hnull', order_float (isNumeric_of_type? hu ht),
      order_float (isNumeric_of_type? hv ht)]
    simp only [compare_lt_iff_lt, compare_gt_iff_gt]
    omega

end Value

namespace Filter

/-! ### Comparisons on a sorted column -/

/-- Whether values in an order are in the relation of an operator that compares. -/
def Operator.allows : Operator → Ordering → Bool
  | eq, o => o.isEq
  | ne, o => !o.isEq
  | lt, o => o.isLT
  | le, o => o.isLE
  | gt, o => o.isGT
  | ge, o => o.isGE
  | contains, _ | startsWith, _ | endsWith, _ => false

/-- Whether an operator compares values. -/
def Operator.isComparison : Operator → Bool
  | contains | startsWith | endsWith => false
  | _ => true

/-- Values in an order are compared by their order. -/
theorem apply_eq_allows {v w : Value} {o : Ordering} (h : v.Ordered w o) {op : Operator}
    (hop : op.isComparison = true) :
  op.apply v w = .ok (op.allows o)
  := by
  cases op with
  | eq => rw [Operator.apply, isEqual_of_ordered h, Operator.allows]
  | ne =>
    rw [Operator.apply, isEqual_of_ordered h]
    rfl
  | lt | le | gt | ge =>
    rw [Operator.apply, compareValues_of_ordered h]
    rfl
  | contains | startsWith | endsWith => cases hop

/-- What is all of a number token is read as a double. -/
theorem exists_scans_of_isLexeme {number : String} (h : IsLexeme [] .number number.toList) :
  ∃ x, Scans number.toList [] ⟨.number, number, some (.float x), 0⟩
  := by
  obtain ⟨literal?, hliteral⟩ := exists_literalOf h
  cases hread : Binary64.read? number.toList with
  | none => simp [literalOf, hread] at hliteral
  | some x =>
    have hvalue : literalOf .number number.toList = .ok (some (.float x)) := by
      simp [literalOf, hread]
    exact ⟨x, scans_iff.mpr ⟨h, hvalue, String.ofList_toList.symm⟩⟩

section

variable {names : List String} {table : List RawRow} {sampleSize : Nat} {d : Dataset} {p : Policy}
  {name number : String} {t : ColumnType}

/-- A comparison of a column of numbers with a number selects from rows of a table those that stand
on a side of the number which it allows. -/
theorem select_eq_passing_allows {x : Binary64} {rows : List Row} {op : Operator}
    (hop : op.isComparison = true) (valid : p.flaw? = none) (hname : isName name = true)
    (hmem : name ∈ d.headers) (ht : t = .integer ∨ t = .float)
    (htyped : ∀ row ∈ rows, Row.cell row name = .null ∨ (Row.cell row name).type? = some t)
    (hnumber : Scans number.toList [] ⟨.number, number, some (.float x), 0⟩) :
  select rows d.schema (comparisonText name op number) p
    = .ok (passing (fun row => op.allows ((Row.cell row name).sideOf x)) rows)
  := by
  obtain ⟨i, j, hread⟩ := read_comparisonText_of_scans op hname hmem hnumber valid
  apply select_eq_passing hread
  intro row hrow
  rw [holds_comparison, apply_eq_allows (Value.ordered_sideOf (htyped row hrow) ht) hop]

/-- In a loaded table that is sorted in ascending order by a column of numbers, the rows come first
that are less than a number, then those that equal it, and last those that are greater. -/
theorem exists_cut_of_sorted (loaded : Dataset.load names table sampleSize = .ok d)
    (hmem : name ∈ d.headers) (ht : t = .integer ∨ t = .float) (x : Binary64)
    (htyped : ∀ row ∈ d.rows, Row.cell row name = .null ∨ (Row.cell row name).type? = some t) :
  ∃ below equal above,
    sortRows d.schema (some ⟨name, .ascending⟩) d.rows = below ++ equal ++ above ∧
    (∀ row ∈ below, (Row.cell row name).sideOf x = .lt) ∧
    (∀ row ∈ equal, (Row.cell row name).sideOf x = .eq) ∧
    ∀ row ∈ above, (Row.cell row name).sideOf x = .gt
  := by
  have hsorted : IsStableSort (SortKey.mk name .ascending).compare d.rows
      (sortRows d.schema (some ⟨name, .ascending⟩) d.rows) :=
    isStableSort_sortRows loaded (fun _ h => h) hmem
  let side : Row → Ordering := fun row => (Row.cell row name).sideOf x
  have hsides : (sortRows d.schema (some ⟨name, .ascending⟩) d.rows).Pairwise
      fun r s => (side s = .lt → side r = .lt) ∧ (side r = .gt → side s = .gt) := by
    apply hsorted.ordered.imp_of_mem
    intro r s hr hs hle
    rw [SortKey.compare_ascending] at hle
    apply Value.sideOf_mono (htyped r (hsorted.perm.mem_iff.mp hr))
      (htyped s (hsorted.perm.mem_iff.mp hs)) ht hle
  apply exists_eq_append_of_cut hsides

/-- In a loaded table that is sorted in ascending order by a column of numbers each comparison with
a number selects a run of rows: the rows that are less come first, then those that are equal, and
last those that are greater. -/
theorem select_of_sorted (loaded : Dataset.load names table sampleSize = .ok d)
    (valid : p.flaw? = none) (hname : isName name = true)
    (htype : d.schema.type? name = some .integer ∨ d.schema.type? name = some .float)
    (hnumber : IsLexeme [] .number number.toList) {sorted : List Row}
    (hsorted : sorted = sortRows d.schema (some ⟨name, .ascending⟩) d.rows) :
  ∃ below equal above, sorted = below ++ equal ++ above ∧
    select sorted d.schema (comparisonText name .lt number) p
      = .ok (below, ⟨sorted.length, below.length, 0⟩) ∧
    select sorted d.schema (comparisonText name .le number) p
      = .ok (below ++ equal, ⟨sorted.length, (below ++ equal).length, 0⟩) ∧
    select sorted d.schema (comparisonText name .eq number) p
      = .ok (equal, ⟨sorted.length, equal.length, 0⟩) ∧
    select sorted d.schema (comparisonText name .ge number) p
      = .ok (equal ++ above, ⟨sorted.length, (equal ++ above).length, 0⟩) ∧
    select sorted d.schema (comparisonText name .gt number) p
      = .ok (above, ⟨sorted.length, above.length, 0⟩)
  := by
  obtain ⟨t, ht, htype⟩ : ∃ t, (t = .integer ∨ t = .float) ∧ d.schema.type? name = some t := by
    rcases htype with htype | htype
    · exact ⟨_, .inl rfl, htype⟩
    · exact ⟨_, .inr rfl, htype⟩
  obtain ⟨hmem, htyped⟩ := Dataset.typed_of_type? loaded htype
  obtain ⟨x, hscans⟩ := exists_scans_of_isLexeme hnumber
  obtain ⟨below, equal, above, hparts, hbelow, hequal, habove⟩ :=
    exists_cut_of_sorted loaded hmem ht x htyped
  have hselect (op : Operator) (hop : op.isComparison = true) :
      select sorted d.schema (comparisonText name op number) p
        = .ok (passing (fun row => op.allows ((Row.cell row name).sideOf x)) sorted) := by
    apply select_eq_passing_allows hop valid hname hmem ht _ hscans
    intro row hrow
    rw [hsorted, (sortRows_perm _ _ _).mem_iff] at hrow
    apply htyped row hrow
  have hfilter (op : Operator) : sorted.filter (fun row => op.allows ((Row.cell row name).sideOf x))
      = (if op.allows .lt then below else []) ++ (if op.allows .eq then equal else [])
        ++ (if op.allows .gt then above else []) := by
    rw [hsorted, hparts, List.filter_append, List.filter_append,
      filter_eq_ite_of_cut hbelow op.allows, filter_eq_ite_of_cut hequal op.allows,
      filter_eq_ite_of_cut habove op.allows]
  refine ⟨below, equal, above, hsorted.trans hparts, ?_, ?_, ?_, ?_, ?_⟩
  all_goals
    rw [hselect _ rfl, passing, hfilter]
    simp [Operator.allows]

/-- Of the cells of a column of doubles the missing one and the negative one are less than zero, and
both zeros equal it, though the sort puts the negative one first. -/
theorem select_of_sorted_of_zeros :
  ∃ d sorted below equal above, Dataset.load ["x", "y"]
      ([("1.5", "a"), ("0", "b"), ("", "c"), ("-0.0", "d"), ("-2", "e")].map
        fun (x, y) => .ofList [("x", x), ("y", y)]) 100 = .ok d ∧
    Policy.strict.flaw? = none ∧ isName "x" = true ∧ d.schema.type? "x" = some .float ∧
    IsLexeme [] .number "0".toList ∧
    sorted = sortRows d.schema (some ⟨"x", .ascending⟩) d.rows ∧
    sorted = below ++ equal ++ above ∧
    below.map (Row.cell · "y") = [.text "c", .text "e"] ∧
    equal.map (Row.cell · "y") = [.text "d", .text "b"] ∧
    above.map (Row.cell · "y") = [.text "a"] ∧
    select sorted d.schema "x <= 0" .strict
      = .ok (below ++ equal, ⟨sorted.length, (below ++ equal).length, 0⟩)
  := by
  let record : String × String → RawRow := fun (x, y) => .ofList [("x", x), ("y", y)]
  let schema : Schema := ⟨["x", "y"], .ofList [("x", .float), ("y", .string)]⟩
  let rows : List Row := [("1.5", "a"), ("0", "b"), ("", "c"), ("-0.0", "d"), ("-2", "e")].map
    (coerce schema ∘ record)
  let sorted : List Row := [("", "c"), ("-2", "e"), ("-0.0", "d"), ("0", "b"), ("1.5", "a")].map
    (coerce schema ∘ record)
  have hload : Dataset.load ["x", "y"]
      ([("1.5", "a"), ("0", "b"), ("", "c"), ("-0.0", "d"), ("-2", "e")].map record) 100
      = .ok ⟨schema, rows⟩ := by decide +kernel
  have hsorted : sorted = sortRows schema (some ⟨"x", .ascending⟩) rows :=
    (isStableSort_iff_eq_sortRows hload (fun _ h => h) (by decide)).mp
      ⟨by decide +kernel, by decide +kernel, by decide +kernel⟩
  have hname : isName "x" = true := by decide +kernel
  have htype : schema.type? "x" = some .float := by decide +kernel
  have hnumber : IsLexeme [] .number "0".toList :=
    .digits ⟨by decide, List.all_eq_true.mp rfl⟩ (fun _ h => nomatch h) rfl
  obtain ⟨below, equal, above, hparts, hlt, hle, heq, -, hgt⟩ :=
    select_of_sorted hload (by decide : Policy.strict.flaw? = none) hname (.inr htype) hnumber
      hsorted
  have hbelow : (select sorted schema (comparisonText "x" .lt "0") .strict).map
      (·.1.map (Row.cell · "y")) = .ok [.text "c", .text "e"] := by decide +kernel
  have hequal : (select sorted schema (comparisonText "x" .eq "0") .strict).map
      (·.1.map (Row.cell · "y")) = .ok [.text "d", .text "b"] := by decide +kernel
  have habove : (select sorted schema (comparisonText "x" .gt "0") .strict).map
      (·.1.map (Row.cell · "y")) = .ok [.text "a"] := by decide +kernel
  rw [hlt] at hbelow
  rw [heq] at hequal
  rw [hgt] at habove
  exact ⟨_, sorted, below, equal, above, hload, by decide, hname, htype, hnumber, hsorted, hparts,
    Except.ok.inj hbelow, Except.ok.inj hequal, Except.ok.inj habove, hle⟩

end

end Filter

end TableQuery
