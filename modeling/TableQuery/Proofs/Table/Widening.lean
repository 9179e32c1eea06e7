import Mathlib.Data.List.Infix
import TableQuery.Proofs.Table.Sampling

/-!
# Widening

The type of a column gives way to less specific types only, as rows are added and the sample grows.
Rows without a text in the column are passed over (`columnTexts_eq_filterMap`), so the type depends
on the first texts of the column alone.  A search for it may therefore end at the bound, and at the
type of strings, which no further text changes (`inferType_eq_result`).
-/

namespace TableQuery

/-- The text that a row carries in a column, unless it stands for a missing value. -/
def carriedText? (name : String) (row : RawRow) : Option String :=
  (row.get? name).filter (!isNullText ·)

/-- Whether a row carries a text in a column: its cell is there, and does not stand for a missing
value. -/
def carriesText (name : String) (row : RawRow) : Bool :=
  (carriedText? name row).isSome

section

variable {rows : List RawRow} {row : RawRow} {name text : String} {k k' : Nat}

/-- The texts of a column are those that its rows carry. -/
theorem columnTexts_eq_filterMap :
  columnTexts rows name = rows.filterMap (carriedText? name)
  := List.filter_filterMap

/-- The rows that carry a text carry all texts of the column. -/
theorem columnTexts_filter :
  columnTexts (rows.filter (carriesText name)) name = columnTexts rows name
  := by
  rw [columnTexts_eq_filterMap, columnTexts_eq_filterMap, List.filterMap_filter]
  congr 1
  funext row
  rw [carriesText]
  cases carriedText? name row <;> rfl

theorem columnSample_cons_of_none (h : carriedText? name row = none) :
  columnSample (row :: rows) name k = columnSample rows name k
  := by
  rw [columnSample, columnSample, columnTexts_eq_filterMap, columnTexts_eq_filterMap,
    List.filterMap_cons_none h]

theorem columnSample_cons_of_some (h : carriedText? name row = some text) :
  columnSample (row :: rows) name (k + 1) = text :: columnSample rows name k
  := by
  rw [columnSample, columnSample, columnTexts_eq_filterMap, columnTexts_eq_filterMap,
    List.filterMap_cons_some h, List.take_succ_cons]

/-- More rows and a larger bound extend a sample. -/
theorem columnSample_isPrefix (rows : List RawRow) (name : String) (more : List RawRow)
    (hle : k ≤ k') :
  columnSample rows name k <+: columnSample (rows ++ more) name k'
  := by
  have hrows : columnTexts rows name <+: columnTexts (rows ++ more) name := by
    rw [columnTexts_eq_filterMap, columnTexts_eq_filterMap, List.filterMap_append]
    apply List.prefix_append
  apply (List.take_prefix_take_left hle).trans (hrows.take k')

/-- A column with a text has a type that is no more specific in more rows, under a larger bound. -/
theorem inferType_le_inferType (more : List RawRow) (hpos : 0 < k) (hle : k ≤ k')
    (htexts : columnTexts rows name ≠ []) :
  inferType rows name k ≤ inferType (rows ++ more) name k'
  := by
  have hne : columnSample rows name k ≠ [] := columnSample_ne_nil hpos htexts
  obtain ⟨rest, hrest⟩ := columnSample_isPrefix rows name more hle
  have hne' : columnSample (rows ++ more) name k' ≠ [] := by
    rw [← hrest]
    apply List.append_ne_nil_of_left_ne_nil hne
  rw [inferType, inferType, ← columnSample, ← columnSample, inferFromSample_eq_foldl hne,
    inferFromSample_eq_foldl hne', ← hrest, List.foldl_append]
  apply le_foldl_fit

end

/-! ### The search for a type -/

/-- How many texts of a column have been read, and the type that they ask for. -/
structure TypeSearch where
  sampled : Nat
  type : ColumnType

namespace TypeSearch

/-- No text has been read yet. -/
def start : TypeSearch := ⟨0, .integer⟩

/-- The search reads the rows one by one, up to the bound or to the type of strings. -/
def run (name : String) (bound : Nat) : List RawRow → TypeSearch → TypeSearch
  | [], s => s
  | row :: rows, s =>
    if bound ≤ s.sampled ∨ s.type = .string then s
    else
      match carriedText? name row with
      | none => run name bound rows s
      | some text => run name bound rows ⟨s.sampled + 1, s.type.fit text⟩

/-- The type that a search has found.  Without a text it is that of strings. -/
def result (s : TypeSearch) : ColumnType :=
  if s.sampled = 0 then .string else s.type

variable {rows : List RawRow} {row : RawRow} {name text : String} {bound : Nat} {s : TypeSearch}

/-- A search that has ended reads no further row. -/
theorem run_of_ended (h : bound ≤ s.sampled ∨ s.type = .string) (rows : List RawRow) :
  run name bound rows s = s
  := by
  cases rows with
  | nil => rfl
  | cons row rows => rw [run, if_pos h]

theorem run_cons_of_none (h : carriedText? name row = none) :
  run name bound (row :: rows) s = run name bound rows s
  := by
  by_cases hended : bound ≤ s.sampled ∨ s.type = .string
  · rw [run_of_ended hended, run_of_ended hended]
  · rw [run, if_neg hended, h]

theorem run_cons_of_some (h : carriedText? name row = some text)
    (hended : ¬ (bound ≤ s.sampled ∨ s.type = .string)) :
  run name bound (row :: rows) s = run name bound rows ⟨s.sampled + 1, s.type.fit text⟩
  := by
  rw [run, if_neg hended, h]

/-- A search only reads on. -/
theorem sampled_le_sampled_run (rows : List RawRow) (s : TypeSearch) :
  s.sampled ≤ (run name bound rows s).sampled
  := by
  induction rows generalizing s with
  | nil => exact Nat.le_refl _
  | cons row rows ih =>
    by_cases hended : bound ≤ s.sampled ∨ s.type = .string
    · rw [run_of_ended hended]
    · cases htext : carriedText? name row with
      | none =>
        rw [run_cons_of_none htext]
        apply ih
      | some text =>
        rw [run_cons_of_some htext hended]
        apply Nat.le_of_succ_le (ih ⟨s.sampled + 1, s.type.fit text⟩)

/-- A search finds the type that the texts up to the bound ask for, though it may not read all. -/
theorem type_run (rows : List RawRow) (s : TypeSearch) :
  (run name bound rows s).type
    = (columnSample rows name (bound - s.sampled)).foldl ColumnType.fit s.type
  := by
  induction rows generalizing s with
  | nil => simp [run, columnSample, columnTexts]
  | cons row rows ih =>
    by_cases hended : bound ≤ s.sampled ∨ s.type = .string
    · rw [run_of_ended hended]
      -- No text is left up to the bound, or none of those that are left changes the type.
      rcases hended with hbound | hstring
      · rw [Nat.sub_eq_zero_of_le hbound]
        rfl
      · rw [hstring]
        symm
        apply foldl_fit_of_accepts
        exact fun text _ => rfl
    · cases htext : carriedText? name row with
      | none =>
        rw [run_cons_of_none htext, ih, columnSample_cons_of_none htext]
      | some text =>
        have hbound : bound - s.sampled = bound - (s.sampled + 1) + 1 := by omega
        rw [run_cons_of_some htext hended, ih, hbound, columnSample_cons_of_some htext,
          List.foldl_cons]

/-- A search reads a text if the bound allows for one and there is one. -/
theorem sampled_run_start_eq_zero_iff :
  (run name bound rows start).sampled = 0 ↔ columnSample rows name bound = []
  := by
  cases bound with
  | zero =>
    rw [run_of_ended (.inl (Nat.le_refl 0))]
    exact ⟨fun _ => rfl, fun _ => rfl⟩
  | succ bound =>
    induction rows with
    | nil => exact ⟨fun _ => rfl, fun _ => rfl⟩
    | cons row rows ih =>
      cases htext : carriedText? name row with
      | none => rw [run_cons_of_none htext, ih, columnSample_cons_of_none htext]
      | some text =>
        have hended : ¬ (bound + 1 ≤ start.sampled ∨ start.type = .string) := by
          simp [start]
        have hread := @sampled_le_sampled_run name (bound + 1) rows ⟨1, start.type.fit text⟩
        rw [run_cons_of_some htext hended, columnSample_cons_of_some htext]
        constructor
        · intro hzero
          apply absurd hzero (Nat.ne_of_gt hread)
        · intro hnil
          cases hnil

end TypeSearch

/-- The search finds the type of the column. -/
theorem inferType_eq_result (rows : List RawRow) (name : String) (k : Nat) :
  inferType rows name k = (TypeSearch.run name k rows .start).result
  := by
  rw [inferType, ← columnSample, TypeSearch.result, TypeSearch.type_run]
  by_cases hnil : columnSample rows name k = []
  · rw [if_pos (TypeSearch.sampled_run_start_eq_zero_iff.mpr hnil), hnil]
    rfl
  · rw [if_neg (mt TypeSearch.sampled_run_start_eq_zero_iff.mp hnil),
      inferFromSample_eq_foldl hnil]
    rfl

/-- The type of a column with a text is no more specific in more rows and under a larger bound.
Rows that carry no text in the column can be left out or put in anywhere, and only the texts up to
the bound matter: a search that ends there, or at the type of strings, finds the type. -/
theorem inferType_widens (rows : List RawRow) (name : String) :
  (∀ more k k', 0 < k → k ≤ k' → columnTexts rows name ≠ [] →
    inferType rows name k ≤ inferType (rows ++ more) name k') ∧
  (∀ rows' k, rows'.filter (carriesText name) = rows.filter (carriesText name) →
    inferType rows' name k = inferType rows name k) ∧
  (∀ rows' k,
    (rows'.filterMap (carriedText? name)).take k = (rows.filterMap (carriedText? name)).take k →
    inferType rows' name k = inferType rows name k) ∧
  ∀ k, inferType rows name k = (TypeSearch.run name k rows .start).result
  := by
  refine ⟨fun more k k' hpos hle => inferType_le_inferType more hpos hle, ?skip, ?texts,
    inferType_eq_result rows name⟩
  case skip =>
    intro rows' k hcarrying
    rw [inferType, inferType, ← columnTexts_filter, hcarrying, columnTexts_filter]
  case texts =>
    intro rows' k htexts
    rw [← columnTexts_eq_filterMap, ← columnTexts_eq_filterMap] at htexts
    rw [inferType, inferType, htexts]

/-- A column of integers, with missing values between them, becomes one of floats as a row with a
float is added and the bound allows for it. -/
theorem inferType_widens_of_float :
  ∃ rows rows' more : List RawRow, columnTexts rows "v" = ["1", "2"] ∧
    columnTexts rows "v" ≠ [] ∧ 0 < 2 ∧ 2 ≤ 3 ∧
    inferType rows "v" 2 = .integer ∧ inferType (rows ++ more) "v" 3 = .float ∧
    inferType rows "v" 2 ≤ inferType (rows ++ more) "v" 3 ∧
    rows'.length = 4 ∧
    rows'.filter (carriesText "v") = rows.filter (carriesText "v") ∧
    inferType rows' "v" 2 = inferType rows "v" 2 ∧
    ((rows ++ more).filterMap (carriedText? "v")).take 2
      = (rows.filterMap (carriedText? "v")).take 2 ∧
    inferType (rows ++ more) "v" 2 = inferType rows "v" 2
  := by
  let rows : List RawRow := ["1", "2"].map fun v => .ofList [("v", v)]
  let rows' : List RawRow := [.ofList [("v", "1")], .ofList [("v", " NULL ")], .ofList [("w", "x")],
    .ofList [("v", "2")]]
  let more : List RawRow := [.ofList [("v", "2.5")]]
  obtain ⟨hwiden, hskip, hdepends, -⟩ := inferType_widens rows "v"
  have hne : columnTexts rows "v" ≠ [] := by decide +kernel
  have hcarrying : rows'.filter (carriesText "v") = rows.filter (carriesText "v") := by
    decide +kernel
  have htexts : ((rows ++ more).filterMap (carriedText? "v")).take 2
      = (rows.filterMap (carriedText? "v")).take 2 := by decide +kernel
  exact ⟨rows, rows', more, by decide +kernel, hne, by decide, by decide, by decide +kernel,
    by decide +kernel, hwiden more 2 3 (by decide) (by decide) hne, rfl, hcarrying,
    hskip rows' 2 hcarrying, htexts, hdepends (rows ++ more) 2 htexts⟩

end TableQuery
