import TableQuery.Value.Reading
import TableQuery.Table.Schema

/-!
# Type inference

The type of a column is inferred from a sample, the first cells of the column that carry a
value: it starts as the most specific type and gives way to a less specific one whenever a
cell of the sample asks for it.  A column without a sample is a column of strings.
-/

namespace TableQuery

/-- The type that `t` widens to, step by step, until it accepts the text `s`. -/
def ColumnType.fit (t : ColumnType) (s : String) : ColumnType :=
  if t.accepts s then t
  else
    match _ : t.widen? with
    | some u => fit u s
    | none => t
termination_by string.rank - t.rank
decreasing_by
  apply rank_sub_lt_of_widen
  assumption

/-- The texts of a column that carry a value. -/
def columnTexts (rows : List (Record String)) (header : String) : List String :=
  (rows.filterMap (·.get? header)).filter (!isNullText ·)

/-- The type that fits a sample. -/
def inferFromSample (sample : List String) : ColumnType :=
  if sample.isEmpty then .string else sample.foldl ColumnType.fit .integer

/-- The type of a column, from a sample of at most `sampleSize` cells. -/
def inferType (rows : List (Record String)) (header : String) (sampleSize : Nat) : ColumnType :=
  inferFromSample ((columnTexts rows header).take sampleSize)

/-- The schema of a table with the given column names. -/
def inferSchema (rows : List (Record String)) (headers : List String) (sampleSize : Nat) :
    Except LoadError Schema :=
  Schema.ofColumns (headers.map fun header => (header, inferType rows header sampleSize))

end TableQuery
