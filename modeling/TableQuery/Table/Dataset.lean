import TableQuery.Table.Inference

/-!
# Datasets

`coerce` gives the cells of a row their column types, and `Dataset.load` does so for a whole
table under the schema inferred from it.
-/

namespace TableQuery

/-- A row as it was read: the text of each cell it has. -/
abbrev RawRow := Record String

/-- A row whose cells have their column types. -/
abbrev Row := Record Value

/-- The cell of a column; a column that the row does not have reads as missing. -/
def Row.cell (r : Row) (name : String) : Value :=
  (r.get? name).getD .null

/-- The value of a cell under the type of its column.  A cell that carries no value, or does
not spell one of this type, is missing. -/
def coerceCell (t : ColumnType) (text? : Option String) : Value :=
  match text? with
  | none => .null
  | some s => if isNullText s then .null else (Value.read? t s).getD .null

/-- The row with a value for every column of the schema. -/
def coerce (s : Schema) (r : RawRow) : Row :=
  .ofList (s.columns.map fun (name, t) => (name, coerceCell t (r.get? name)))

/-- A typed table. -/
structure Dataset where
  schema : Schema
  rows : List Row
  deriving DecidableEq

namespace Dataset

/-- The number of cells from which the type of a column is inferred, unless said
otherwise. -/
def defaultSampleSize : Nat := 100

/-- The typed table of raw rows.  There must be column names, pairwise distinct, and a
row. -/
def load (headers : List String) (rows : List RawRow) (sampleSize : Nat) :
    Except LoadError Dataset :=
  if headers.isEmpty then
    .error (if rows.isEmpty then .empty else .missingHeaders)
  else do
    let schema ← inferSchema rows headers sampleSize
    if rows.isEmpty then .error .empty
    else .ok ⟨schema, rows.map (coerce schema)⟩

/-- The column names of the table. -/
def headers (d : Dataset) : List String := d.schema.headers

/-- The number of rows. -/
def size (d : Dataset) : Nat := d.rows.length

end Dataset

end TableQuery
