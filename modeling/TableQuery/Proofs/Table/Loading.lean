import Mathlib.Data.List.Induction
import Mathlib.Data.List.Nodup
import TableQuery.Proofs.Value.Reading
import TableQuery.Table.Dataset

/-!
# Loaded tables

A schema is built from columns exactly if their names are distinct, and then has these columns
(`Schema.ofColumns_eq_ok_iff`, `Schema.columns_of_nodup`).  A table is loaded exactly if it has
column names, all distinct, and a row (`Dataset.load_eq_ok_iff`), and what is loaded is well
formed: each of its rows has a cell for every column and no other, which is missing or of the
type of the column.
-/

namespace TableQuery

/-! ### Records of listed cells -/

namespace Record

variable {α : Type} {cells : List (String × α)} {name : String} {a : α}

theorem contains_insert (r : Record α) (name other : String) (a : α) :
  (r.insert name a).contains other = true ↔ other = name ∨ r.contains other = true
  := by
  rw [contains, get?_insert]
  by_cases h : other = name
  · simp [h]
  · simp [h, contains]

/-- A record has the columns that cells are listed for. -/
theorem contains_ofList :
  (ofList cells).contains name = true ↔ name ∈ cells.map Prod.fst
  := by
  induction cells using List.reverseRecOn with
  | nil => simp [ofList, contains]
  | append_singleton cells c ih => simp [ofList_concat, contains_insert, ih, or_comm]

/-- Of cells with distinct names each one is in the record. -/
theorem get?_ofList_of_mem (hnodup : (cells.map Prod.fst).Nodup) (h : (name, a) ∈ cells) :
  (ofList cells).get? name = some a
  := by
  induction cells using List.reverseRecOn with
  | nil => cases h
  | append_singleton cells c ih =>
    rw [List.map_append, List.nodup_append] at hnodup
    obtain ⟨hcells, -, hnew⟩ := hnodup
    rw [ofList_concat, get?_insert]
    rcases List.mem_append.mp h with h | h
    · have hne : name ≠ c.1 := hnew name (List.mem_map_of_mem h) c.1 (by simp)
      rw [if_neg hne, ih hcells h]
    · obtain rfl := List.mem_singleton.mp h
      rw [if_pos rfl]

end Record

/-! ### Schemas -/

namespace Schema

variable {columns : List (String × ColumnType)} {s : Schema} {name : String} {t : ColumnType}

theorem addColumn_eq_ok_iff (s s' : Schema) :
  s.addColumn name t = .ok s'
    ↔ s.types.contains name = false ∧ s' = ⟨s.headers ++ [name], s.types.insert name t⟩
  := by
  rw [addColumn]
  cases s.types.contains name <;> simp [eq_comm]

theorem ofColumns_concat (columns : List (String × ColumnType)) (c : String × ColumnType) :
  ofColumns (columns ++ [c]) = (ofColumns columns).bind fun s => s.addColumn c.1 c.2
  := by
  simp only [ofColumns, List.foldlM_append, List.foldlM_cons, List.foldlM_nil, bind_pure]
  rfl

/-- Columns make a schema exactly if their names are distinct. -/
theorem ofColumns_eq_ok_iff :
  ofColumns columns = .ok s
    ↔ (columns.map Prod.fst).Nodup ∧ s = ⟨columns.map Prod.fst, .ofList columns⟩
  := by
  induction columns using List.reverseRecOn generalizing s with
  | nil => simp [ofColumns, pure, Except.pure, empty, Record.ofList, eq_comm]
  | append_singleton columns c ih =>
    have hbind : ofColumns (columns ++ [c]) = .ok s
        ↔ ∃ s', ofColumns columns = .ok s' ∧ s'.addColumn c.1 c.2 = .ok s := by
      rw [ofColumns_concat]
      cases ofColumns columns <;> simp [Except.bind]
    have hnew : (Record.ofList columns).contains c.1 = false ↔ c.1 ∉ columns.map Prod.fst := by
      rw [← Record.contains_ofList, Bool.not_eq_true]
    rw [hbind, List.map_append, List.map_singleton, ← List.concat_eq_append, List.nodup_concat,
      List.concat_eq_append, ← hnew, Record.ofList_concat]
    simp only [ih, addColumn_eq_ok_iff]
    constructor
    · rintro ⟨s', ⟨hcolumns, rfl⟩, hc, rfl⟩
      exact ⟨⟨hc, hcolumns⟩, rfl⟩
    · rintro ⟨⟨hc, hcolumns⟩, rfl⟩
      exact ⟨_, ⟨hcolumns, rfl⟩, hc, rfl⟩

/-- The columns of a schema are those that it was built from. -/
theorem columns_of_nodup (hnodup : (columns.map Prod.fst).Nodup) :
  (⟨columns.map Prod.fst, .ofList columns⟩ : Schema).columns = columns
  := by
  have hfind : ∀ c ∈ columns, ((Record.ofList columns).get? c.1).map (c.1, ·) = some c := by
    intro c hc
    rw [Record.get?_ofList_of_mem hnodup hc]
    rfl
  rw [Schema.columns, List.filterMap_map]
  apply Eq.trans (List.filterMap_congr hfind)
  apply List.filterMap_some

end Schema

/-- The schema with the given columns, their types inferred from the rows of a table. -/
def Schema.inferred (headers : List String) (rows : List RawRow) (sampleSize : Nat) : Schema :=
  ⟨headers, .ofList (headers.map fun name => (name, inferType rows name sampleSize))⟩

section Inferred

variable {headers : List String} {rows : List RawRow} {sampleSize : Nat} {name : String}

theorem map_fst_inferred (headers : List String) (rows : List RawRow) (sampleSize : Nat) :
  (headers.map fun name => (name, inferType rows name sampleSize)).map Prod.fst = headers
  := by
  simp [Function.comp_def]

/-- A schema is inferred exactly if the column names are distinct. -/
theorem inferSchema_eq_ok_iff {s : Schema} :
  inferSchema rows headers sampleSize = .ok s
    ↔ headers.Nodup ∧ s = .inferred headers rows sampleSize
  := by
  rw [inferSchema, Schema.ofColumns_eq_ok_iff, map_fst_inferred]
  rfl

/-- An inferred schema has a type for the columns that it names and for no other. -/
theorem contains_inferred :
  (Schema.inferred headers rows sampleSize).contains name = true ↔ name ∈ headers
  := by
  rw [Schema.inferred, Schema.contains, Record.contains_ofList, map_fst_inferred]

theorem columns_inferred (hnodup : headers.Nodup) :
  (Schema.inferred headers rows sampleSize).columns
    = headers.map fun name => (name, inferType rows name sampleSize)
  := by
  rw [← map_fst_inferred headers rows sampleSize] at hnodup
  have hcolumns := Schema.columns_of_nodup hnodup
  rwa [map_fst_inferred] at hcolumns

theorem type?_inferred (hnodup : headers.Nodup) (hname : name ∈ headers) :
  (Schema.inferred headers rows sampleSize).type? name = some (inferType rows name sampleSize)
  := by
  rw [← map_fst_inferred headers rows sampleSize] at hnodup
  apply Record.get?_ofList_of_mem hnodup
  apply List.mem_map_of_mem (f := fun name => (name, inferType rows name sampleSize)) hname

end Inferred

/-! ### Rows -/

section Rows

variable {s : Schema} {headers : List String} {rows : List RawRow} {sampleSize : Nat}
  {name : String} {t : ColumnType}

/-- A row has the columns of its schema. -/
theorem contains_coerce (r : RawRow) :
  (coerce s r).contains name = true ↔ name ∈ s.columns.map Prod.fst
  := by
  rw [coerce, Record.contains_ofList, List.map_map]
  rfl

/-- The cells of a row are those of the raw row under the types of their columns. -/
theorem cell_coerce (hnodup : (s.columns.map Prod.fst).Nodup) (h : (name, t) ∈ s.columns)
    (r : RawRow) :
  Row.cell (coerce s r) name = coerceCell t (r.get? name)
  := by
  have hcells : ((s.columns.map fun c => (c.1, coerceCell c.2 (r.get? c.1))).map Prod.fst).Nodup := by
    rw [List.map_map]
    exact hnodup
  have hcell := Record.get?_ofList_of_mem hcells (List.mem_map_of_mem h)
  rw [Row.cell, coerce, hcell]
  rfl

/-- A cell is missing exactly if its text carries no value, or none of the type of its column. -/
theorem coerceCell_eq_null_iff {text : String} :
  coerceCell t (some text) = .null ↔ isNullText text = true ∨ t.accepts text = false
  := by
  rw [coerceCell, ColumnType.accepts]
  cases isNullText text with
  | true => simp
  | false =>
    cases h : Value.read? t text with
    | none => simp
    | some v =>
      have hv : v ≠ .null := by
        rintro rfl
        cases Value.type?_of_read? h
      simpa using hv

/-- A cell is missing or of the type of its column. -/
theorem type?_coerceCell (t : ColumnType) (text? : Option String) :
  coerceCell t text? = .null ∨ (coerceCell t text?).type? = some t
  := by
  cases text? with
  | none => exact .inl rfl
  | some text =>
    rw [coerceCell]
    split
    · exact .inl rfl
    · cases h : Value.read? t text with
      | none => exact .inl rfl
      | some v => exact .inr (Value.type?_of_read? h)

/-- A row of a table has the columns that its inferred schema names. -/
theorem contains_coerce_inferred (hnodup : headers.Nodup) (r : RawRow) :
  (coerce (.inferred headers rows sampleSize) r).contains name = true ↔ name ∈ headers
  := by
  rw [contains_coerce, columns_inferred hnodup, map_fst_inferred]

/-- The cells of a row of a table are those of the raw row under the inferred types. -/
theorem cell_coerce_inferred (hnodup : headers.Nodup) (hname : name ∈ headers) (r : RawRow) :
  Row.cell (coerce (.inferred headers rows sampleSize) r) name
    = coerceCell (inferType rows name sampleSize) (r.get? name)
  := by
  apply cell_coerce
  · rwa [columns_inferred hnodup, map_fst_inferred]
  · rw [columns_inferred hnodup]
    apply List.mem_map_of_mem (f := fun name => (name, inferType rows name sampleSize)) hname

end Rows

/-! ### Datasets -/

namespace Dataset

variable {headers : List String} {rows : List RawRow} {sampleSize : Nat} {d : Dataset}

/-- A table is loaded exactly if it has column names, all distinct, and a row. -/
theorem load_eq_ok_iff :
  load headers rows sampleSize = .ok d
    ↔ headers ≠ [] ∧ headers.Nodup ∧ rows ≠ [] ∧
      d = ⟨.inferred headers rows sampleSize,
        rows.map (coerce (.inferred headers rows sampleSize))⟩
  := by
  cases headers with
  | nil => simp [load]
  | cons name headers =>
    have hschema (s : Schema) : inferSchema rows (name :: headers) sampleSize = .ok s
        ↔ (name :: headers).Nodup ∧ s = .inferred (name :: headers) rows sampleSize :=
      inferSchema_eq_ok_iff
    simp only [load, List.isEmpty_cons, Bool.false_eq_true, if_false, bind, Except.bind]
    cases h : inferSchema rows (name :: headers) sampleSize with
    | error e =>
      have hnodup : ¬ (name :: headers).Nodup := by
        intro hnodup
        have hok := (hschema _).mpr ⟨hnodup, rfl⟩
        rw [h] at hok
        cases hok
      simp [hnodup]
    | ok s =>
      obtain ⟨hnodup, rfl⟩ := (hschema s).mp h
      cases rows <;> simp [hnodup, eq_comm]

theorem load_of_nodup (hheaders : headers ≠ []) (hnodup : headers.Nodup) (hrows : rows ≠ []) :
  load headers rows sampleSize
    = .ok ⟨.inferred headers rows sampleSize,
        rows.map (coerce (.inferred headers rows sampleSize))⟩
  := load_eq_ok_iff.mpr ⟨hheaders, hnodup, hrows, rfl⟩

/-- The schema of a loaded table has a type for its columns and for no other. -/
theorem contains_iff_mem_headers (h : load headers rows sampleSize = .ok d) {name : String} :
  d.schema.contains name = true ↔ name ∈ d.headers
  := by
  obtain ⟨-, -, -, rfl⟩ := load_eq_ok_iff.mp h
  apply contains_inferred

/-- A typed table in order: it has columns and rows, and every row has a cell for each column
and no other, which is missing or of the type of its column. -/
structure WellFormed (d : Dataset) : Prop where
  headers_ne_nil : d.headers ≠ []
  headers_nodup : d.headers.Nodup
  rows_ne_nil : d.rows ≠ []
  contains_iff : ∀ row ∈ d.rows, ∀ name, Record.contains row name = true ↔ name ∈ d.headers
  typed : ∀ name ∈ d.headers, ∃ t, d.schema.type? name = some t ∧
    ∀ row ∈ d.rows, Row.cell row name = .null ∨ (Row.cell row name).type? = some t

/-- A loaded table is well formed. -/
theorem wellFormed_of_load (h : load headers rows sampleSize = .ok d) :
  d.WellFormed
  := by
  obtain ⟨hheaders, hnodup, hrows, rfl⟩ := load_eq_ok_iff.mp h
  constructor
  · apply hheaders
  · apply hnodup
  · simpa using hrows
  · intro row hrow name
    obtain ⟨r, -, rfl⟩ := List.mem_map.mp hrow
    apply contains_coerce_inferred hnodup
  · intro name hname
    use inferType rows name sampleSize, type?_inferred hnodup hname
    intro row hrow
    obtain ⟨r, -, rfl⟩ := List.mem_map.mp hrow
    rw [cell_coerce_inferred hnodup hname]
    apply type?_coerceCell

/-- Where the schema of a loaded table has a type, there is a column, whose cells are missing or of
this type. -/
theorem typed_of_type? (h : load headers rows sampleSize = .ok d) {name : String} {t : ColumnType}
    (ht : d.schema.type? name = some t) :
  name ∈ d.headers ∧
  ∀ row ∈ d.rows, Row.cell row name = .null ∨ (Row.cell row name).type? = some t
  := by
  have hname : name ∈ d.headers :=
    (contains_iff_mem_headers h).mp (Option.isSome_of_eq_some ht)
  obtain ⟨u, hu, htyped⟩ := (wellFormed_of_load h).typed name hname
  obtain rfl : t = u := Option.some.inj (ht.symm.trans hu)
  exact ⟨hname, htyped⟩

end Dataset

end TableQuery
