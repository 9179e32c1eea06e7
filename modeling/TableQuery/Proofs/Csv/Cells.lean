import Mathlib.Data.List.Forall2
import TableQuery.Proofs.Csv.RoundTrip
import TableQuery.Proofs.Table.Loading

/-!
# Cells that were written

A row that was written is read as a row with the columns of the table and no other, each holding
the text of its cell, also where the row that was written lacks the column
(`Csv.get?_rowOf_cellTexts`).  A table that was written is therefore read as a table of such rows,
in the same order (`Csv.ReadsAs`, `Csv.read_write_cells`).
-/

namespace TableQuery.Csv

variable {headers : List String} {name : String}

/-- Every record that is written for a row has as many fields as the one of the column names. -/
theorem length_cellTexts (headers : List String) (row : Row) :
  (cellTexts headers row).length = headers.length
  := List.length_map _

theorem zip_cellTexts (headers : List String) (row : Row) :
  headers.zip (cellTexts headers row) = headers.map fun name => (name, (row.cell name).display)
  := by
  have hzip : (headers.map id).zip (cellTexts headers row)
      = headers.map fun name => (id name, (row.cell name).display) := List.zip_map'
  rwa [List.map_id] at hzip

/-- The row that is read where a row was written holds the texts of its cells. -/
theorem get?_rowOf_cellTexts (hnodup : headers.Nodup) (row : Row) (name : String) :
  (rowOf headers (cellTexts headers row)).get? name
    = if name ∈ headers then some (row.cell name).display else none
  := by
  rw [rowOf, zip_cellTexts]
  split
  · next hname =>
    apply Record.get?_ofList_of_mem
    · simpa [Function.comp_def] using hnodup
    · apply List.mem_map_of_mem (f := fun name => (name, (row.cell name).display)) hname
  · next hname =>
    have hcontains : (Record.ofList (headers.map fun name =>
        (name, (row.cell name).display))).contains name ≠ true := by
      simpa [Record.contains_ofList] using hname
    simpa [Record.contains] using hcontains

/-- The bytes are read as a table with the given column names and a row for each of the given rows
in their order.  In such a row the columns of the table and no other hold the texts of the
cells. -/
def ReadsAs (bytes : List UInt8) (headers : List String) (rows : List Row) : Prop :=
  ∃ table, read bytes = .ok table ∧ table.headers = headers ∧
    List.Forall₂ (fun raw row => ∀ name, raw.get? name
      = if name ∈ headers then some (Row.cell row name).display else none) table.rows rows

theorem readsAs_of_read {bytes : List UInt8} {rows : List Row} (hnodup : headers.Nodup)
    (h : read bytes = .ok ⟨headers, rows.map fun row => rowOf headers (cellTexts headers row)⟩) :
  ReadsAs bytes headers rows
  := by
  refine ⟨_, h, rfl, ?_⟩
  rw [List.forall₂_map_left_iff, List.forall₂_same]
  intro row _
  apply get?_rowOf_cellTexts hnodup

/-- A table with distinct column names, the first of which does not start with a byte order mark,
is written as records of one length, and is read with the same column names and a row for each of
its rows in their order.  In such a row the columns of the table and no other hold the texts of
the cells. -/
theorem read_write_cells (hheaders : headers ≠ []) (hnodup : headers.Nodup)
    (hmark : ∀ name ∈ headers.head?, name.toList.head? ≠ some (Char.ofNat 0xFEFF))
    (rows : List Row) :
  (∀ row ∈ rows, (cellTexts headers row).length = headers.length) ∧
    ∃ table, read (Text.encode (write headers rows)) = .ok table ∧ table.headers = headers ∧
      List.Forall₂ (fun raw row => ∀ name, raw.get? name
        = if name ∈ headers then some (Row.cell row name).display else none) table.rows rows
  := by
  constructor
  · intro row _
    apply length_cellTexts
  · apply readsAs_of_read hnodup (read_write hheaders hmark rows)

/-- One column, whose rows hold the empty text, a quote, two line ends, and nothing at all. -/
theorem read_write_cells_of_note :
  ∃ rows : List Row,
    rows = [.ofList [("note", .text "")], .ofList [("note", .text "\"")],
      .ofList [("note", .text "\r\n")], .empty] ∧
    (∀ row ∈ rows, (cellTexts ["note"] row).length = 1) ∧
    ∃ table, read (Text.encode (write ["note"] rows)) = .ok table ∧ table.headers = ["note"] ∧
      List.Forall₂ (fun raw row => ∀ name, raw.get? name
        = if name ∈ ["note"] then some (Row.cell row name).display else none) table.rows rows
  := by
  refine ⟨_, rfl, ?_⟩
  apply read_write_cells
  · decide
  · decide
  · decide

end TableQuery.Csv
