import TableQuery.Table.Dataset

/-!
# Writing CSV

`Csv.write` writes the column names and then a line for each row, with the text forms of the
cells.  A field is quoted when it holds a comma, a quote or a line end, and its quotes are
doubled.  A line that would be empty is written as an empty quoted field, because empty
lines are skipped when they are read.
-/

namespace TableQuery.Csv

/-- Whether a field with the character `c` is quoted. -/
def needsQuotes (c : Char) : Bool :=
  c = ',' || c = '"' || c = '\r' || c = '\n'

/-- A character between quotes. -/
def doubleQuote (c : Char) : List Char :=
  if c = '"' then ['"', '"'] else [c]

/-- A field as it is written. -/
def fieldText (s : String) : List Char :=
  if s.toList.any needsQuotes then '"' :: s.toList.flatMap doubleQuote ++ ['"'] else s.toList

/-- The fields of a record with commas between them. -/
def joinFields : List String → List Char
  | [] => []
  | [s] => fieldText s
  | s :: rest => fieldText s ++ ',' :: joinFields rest

/-- A record as it is written, with its line end. -/
def lineText (fields : List String) : List Char :=
  let text := joinFields fields
  (if text.isEmpty then ['"', '"'] else text) ++ ['\n']

/-- The texts of the cells of a row, in header order. -/
def cellTexts (headers : List String) (row : Row) : List String :=
  headers.map fun name => (row.cell name).display

/-- The characters of a table with the given column names and rows. -/
def tableText (headers : List String) (rows : List Row) : List Char :=
  (headers :: rows.map (cellTexts headers)).flatMap lineText

/-- The text of a table with the given column names and rows. -/
def write (headers : List String) (rows : List Row) : String :=
  String.ofList (tableText headers rows)

end TableQuery.Csv
