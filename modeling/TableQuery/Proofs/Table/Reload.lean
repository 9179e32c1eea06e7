import TableQuery.Proofs.Csv.Cells
import TableQuery.Proofs.Table.Inference

/-!
# Tables that are written and loaded again

A loaded table is loaded again from its own CSV text, provided that each of its values can be read
back from its text form (`Dataset.load_read_write`).  The column types are inferred from other
texts than before: those that spelled no value of their column are gone, and numbers are written
in one form, so that a sample holds other cells.  A column of strings keeps all its texts
(`writtenTexts_string`).  In any other column each text that is left asks for the type of the
column, and one is left, since a text of the first sample was of this type
(`inferFromSample_writtenTexts`).
-/

namespace TableQuery

/-- A cell of a column of type `t` survives as text: if it is not missing, its text form spells
it. -/
def Value.SurvivesAs (v : Value) (t : ColumnType) : Prop :=
  v ≠ .null → Value.read t v.display = .ok v

instance (v : Value) (t : ColumnType) : Decidable (v.SurvivesAs t) :=
  inferInstanceAs (Decidable (v ≠ .null → Value.read t v.display = .ok v))

/-! ### Cells -/

section Cells

variable {v : Value} {t : ColumnType} {text? : Option String} {text : String}

theorem isNullText_display_null :
  isNullText Value.null.display = true
  := by decide

/-- A text that carries a value is a cell of a column of strings as it is. -/
theorem coerceCell_string :
  coerceCell .string (some text) = if isNullText text then .null else .text text
  := rfl

/-- The text form of a cell that is not missing carries a value. -/
theorem isNullText_display (hcell : coerceCell t text? = v) (hsurvives : v.SurvivesAs t)
    (hv : v ≠ .null) :
  isNullText v.display = false
  := by
  by_cases ht : t = .string
  · subst ht
    cases text? with
    | none => apply absurd hcell.symm hv
    | some text =>
      rw [coerceCell_string] at hcell
      split at hcell
      · apply absurd hcell.symm hv
      · next hnull =>
        subst hcell
        simpa [Value.display] using hnull
  · apply isNullText_of_accepts ht
    rw [ColumnType.accepts, Value.read_eq_ok_iff.mp (hsurvives hv), Option.isSome_some]

/-- A cell that survives as text is read back from its text form. -/
theorem coerceCell_display (hcell : coerceCell t text? = v) (hsurvives : v.SurvivesAs t) :
  coerceCell t (some v.display) = v
  := by
  by_cases hv : v = .null
  · subst hv
    rw [coerceCell, isNullText_display_null, if_pos rfl]
  · rw [coerceCell, isNullText_display hcell hsurvives hv, if_neg Bool.false_ne_true,
      Value.read_eq_ok_iff.mp (hsurvives hv), Option.getD_some]

end Cells

/-! ### Columns -/

section Columns

variable {headers : List String} {rows : List RawRow} {sampleSize : Nat} {name : String}
  {t : ColumnType}

/-- The texts of a column that carry a value, once its cells have been written. -/
def writtenTexts (t : ColumnType) (rows : List RawRow) (name : String) : List String :=
  (rows.map fun raw => (coerceCell t (raw.get? name)).display).filter (!isNullText ·)

theorem mem_writtenTexts {text : String} :
  text ∈ writtenTexts t rows name
    ↔ ∃ raw ∈ rows, (coerceCell t (raw.get? name)).display = text ∧ isNullText text = false
  := by
  simp only [writtenTexts, List.mem_filter, List.mem_map, Bool.not_eq_true']
  constructor
  · rintro ⟨⟨raw, hraw, rfl⟩, hnull⟩
    exact ⟨raw, hraw, rfl, hnull⟩
  · rintro ⟨raw, hraw, rfl, hnull⟩
    exact ⟨⟨raw, hraw, rfl⟩, hnull⟩

/-- A column of strings keeps its texts. -/
theorem writtenTexts_string (rows : List RawRow) (name : String) :
  writtenTexts .string rows name = columnTexts rows name
  := by
  induction rows with
  | nil => rfl
  | cons raw rows ih =>
    rw [writtenTexts, columnTexts] at ih ⊢
    rw [List.map_cons, List.filter_cons, ih]
    cases hget : raw.get? name with
    | none => simp [coerceCell, isNullText_display_null, hget]
    | some text =>
      rw [List.filterMap_cons, hget, List.filter_cons, coerceCell_string]
      cases hnull : isNullText text with
      | true => simp [isNullText_display_null]
      | false => simp [Value.display, hnull]

/-- A sample that is not empty leaves a text of the column: the type of the sample accepts one of
its texts. -/
theorem writtenTexts_ne_nil (hsample : (columnTexts rows name).take sampleSize ≠ [])
    (ht : inferType rows name sampleSize = t)
    (hsurvives : ∀ raw ∈ rows, (coerceCell t (raw.get? name)).SurvivesAs t) :
  writtenTexts t rows name ≠ []
  := by
  obtain ⟨text, htext, haccepts⟩ := exists_accepts_inferFromSample hsample
  rw [← inferType, ht] at haccepts
  obtain ⟨hmem, hnull⟩ := List.mem_filter.mp (List.mem_of_mem_take htext)
  obtain ⟨raw, hraw, hget⟩ := List.mem_filterMap.mp hmem
  have hv : coerceCell t (raw.get? name) ≠ .null := by
    rw [hget, ne_eq, coerceCell_eq_null_iff, haccepts]
    simpa using hnull
  apply List.ne_nil_of_mem
  apply mem_writtenTexts.mpr
  use raw, hraw, rfl
  apply isNullText_display rfl (hsurvives raw hraw) hv

/-- A text that is left in a column asks for the type of the column. -/
theorem fit_of_mem_writtenTexts {text : String} (hstring : t ≠ .string)
    (hsurvives : ∀ raw ∈ rows, (coerceCell t (raw.get? name)).SurvivesAs t)
    (htext : text ∈ writtenTexts t rows name) :
  ColumnType.fit .integer text = t
  := by
  obtain ⟨raw, hraw, rfl, hnull⟩ := mem_writtenTexts.mp htext
  have hv : coerceCell t (raw.get? name) ≠ .null := by
    intro hv
    rw [hv, isNullText_display_null] at hnull
    cases hnull
  have htype := (type?_coerceCell t (raw.get? name)).resolve_left hv
  apply fit_display htype hstring (hsurvives raw hraw hv)

/-- The texts of a column are inferred to be of the same type when they have been written. -/
theorem inferFromSample_writtenTexts (ht : inferType rows name sampleSize = t)
    (hsurvives : ∀ raw ∈ rows, (coerceCell t (raw.get? name)).SurvivesAs t) :
  inferFromSample ((writtenTexts t rows name).take sampleSize) = t
  := by
  by_cases hstring : t = .string
  · subst hstring
    rw [writtenTexts_string]
    apply ht
  · -- Without a sample the type would be the one of strings.
    have hsample : (columnTexts rows name).take sampleSize ≠ [] := by
      intro hnil
      rw [inferType, hnil] at ht
      apply hstring ht.symm
    apply inferFromSample_eq
    · have hkept := writtenTexts_ne_nil hsample ht hsurvives
      rw [ne_eq, List.take_eq_nil_iff, not_or] at hsample ⊢
      exact ⟨hsample.1, hkept⟩
    · intro text htext
      apply fit_of_mem_writtenTexts hstring hsurvives (List.mem_of_mem_take htext)

end Columns

/-! ### Tables -/

section Tables

variable {headers : List String} {rows : List RawRow} {sampleSize : Nat} {name : String}

/-- The row that is read where a row has been written. -/
def writtenRow (headers : List String) (row : Row) : RawRow :=
  Csv.rowOf headers (Csv.cellTexts headers row)

theorem get?_writtenRow (hnodup : headers.Nodup) (hname : name ∈ headers) (row : Row) :
  (writtenRow headers row).get? name = some (row.cell name).display
  := by
  rw [writtenRow, Csv.get?_rowOf_cellTexts hnodup, if_pos hname]

/-- The rows that are read where the rows of a loaded table have been written. -/
def writtenRows (headers : List String) (rows : List RawRow) (sampleSize : Nat) : List RawRow :=
  (rows.map (coerce (.inferred headers rows sampleSize))).map (writtenRow headers)

theorem columnTexts_writtenRows (hnodup : headers.Nodup) (hname : name ∈ headers) :
  columnTexts (writtenRows headers rows sampleSize) name
    = writtenTexts (inferType rows name sampleSize) rows name
  := by
  have hget : ∀ raw ∈ rows,
      (writtenRow headers (coerce (.inferred headers rows sampleSize) raw)).get? name
        = some (coerceCell (inferType rows name sampleSize) (raw.get? name)).display := by
    intro raw _
    rw [get?_writtenRow hnodup hname, cell_coerce_inferred hnodup hname]
  rw [columnTexts, writtenTexts, writtenRows, List.map_map, List.filterMap_map,
    ← List.filterMap_eq_map]
  congr 1
  apply List.filterMap_congr hget

/-- The cells of the rows of a table survive as texts of their columns. -/
def CellsSurvive (headers : List String) (rows : List RawRow) (sampleSize : Nat) : Prop :=
  ∀ name ∈ headers, ∀ raw ∈ rows,
    (coerceCell (inferType rows name sampleSize) (raw.get? name)).SurvivesAs
      (inferType rows name sampleSize)

/-- The same types are inferred for a table that has been written. -/
theorem inferred_writtenRows (hnodup : headers.Nodup)
    (hsurvive : CellsSurvive headers rows sampleSize) :
  Schema.inferred headers (writtenRows headers rows sampleSize) sampleSize
    = .inferred headers rows sampleSize
  := by
  have htype : ∀ name ∈ headers,
      (name, inferType (writtenRows headers rows sampleSize) name sampleSize)
        = (name, inferType rows name sampleSize) := by
    intro name hname
    rw [inferType, columnTexts_writtenRows hnodup hname,
      inferFromSample_writtenTexts rfl (hsurvive name hname)]
  rw [Schema.inferred, Schema.inferred, List.map_congr_left htype]

/-- A row that has been written is read as the row that it was. -/
theorem coerce_writtenRow (hnodup : headers.Nodup) (hsurvive : CellsSurvive headers rows sampleSize)
    {raw : RawRow} (hraw : raw ∈ rows) :
  coerce (.inferred headers rows sampleSize)
      (writtenRow headers (coerce (.inferred headers rows sampleSize) raw))
    = coerce (.inferred headers rows sampleSize) raw
  := by
  rw [coerce, coerce]
  congr 1
  apply List.map_congr_left
  intro c hc
  rw [columns_inferred hnodup] at hc
  obtain ⟨name, hname, rfl⟩ := List.mem_map.mp hc
  apply congrArg (name, ·)
  rw [← coerce, get?_writtenRow hnodup hname, cell_coerce_inferred hnodup hname,
    coerceCell_display rfl (hsurvive name hname raw hraw)]

end Tables

namespace Dataset

variable {headers : List String} {rows : List RawRow} {sampleSize : Nat} {d : Dataset}

/-- A loaded table is read and loaded again from the text that is written for it, if its first
column name does not start with a byte order mark and its cells survive as text. -/
theorem load_read_write (hload : load headers rows sampleSize = .ok d)
    (hmark : ∀ name ∈ headers.head?, name.toList.head? ≠ some (Char.ofNat 0xFEFF))
    (hcells : ∀ name ∈ d.headers, ∀ t ∈ d.schema.type? name, ∀ row ∈ d.rows,
      (Row.cell row name).SurvivesAs t) :
  ∃ table, Csv.read (Text.encode (Csv.write d.headers d.rows)) = .ok table ∧
    load table.headers table.rows sampleSize = .ok d
  := by
  obtain ⟨hheaders, hnodup, hrows, rfl⟩ := load_eq_ok_iff.mp hload
  have hsurvive : CellsSurvive headers rows sampleSize := by
    intro name hname raw hraw
    have h := hcells name hname _ (type?_inferred hnodup hname) _ (List.mem_map_of_mem hraw)
    rwa [cell_coerce_inferred hnodup hname] at h
  use ⟨headers, writtenRows headers rows sampleSize⟩
  constructor
  · apply Csv.read_write hheaders hmark
  · have hwritten : writtenRows headers rows sampleSize ≠ [] := by
      simpa [writtenRows] using hrows
    rw [load_of_nodup hheaders hnodup hwritten, inferred_writtenRows hnodup hsurvive]
    congr 2
    rw [writtenRows, List.map_map, List.map_map]
    apply List.map_congr_left
    intro raw hraw
    apply coerce_writtenRow hnodup hsurvive hraw

/-- Orders, loaded from a sample of two cells: the first column is one of floats, although its
last text is none and is lost, and a text of the second one is quoted. -/
theorem load_read_write_of_orders :
  ∃ d, load ["price", "item"]
      [.ofList [("price", "1"), ("item", "tea, green")], .ofList [("price", " 2.50")],
        .ofList [("price", "free"), ("item", "")]] 2 = .ok d ∧
    d.schema.type? "price" = some .float ∧
    ∃ table, Csv.read (Text.encode (Csv.write d.headers d.rows)) = .ok table ∧
      load table.headers table.rows 2 = .ok d
  := by
  refine ⟨_, load_of_nodup (by decide) (by decide) (by decide), ?_, ?_⟩
  · decide +kernel
  · apply load_read_write (load_of_nodup (by decide) (by decide) (by decide))
    · decide
    · decide +kernel

end Dataset

end TableQuery
