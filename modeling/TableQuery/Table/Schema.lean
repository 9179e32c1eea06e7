import TableQuery.Value.Basic
import TableQuery.Table.Record

/-!
# Schemas

A `Schema` is the list of the column names of a table and the types of its columns.
`Schema.ofColumns` builds one from columns with distinct names; a schema that comes from
elsewhere may name columns without a type, and these are no part of `Schema.columns`.
-/

namespace TableQuery

/-- Why a table cannot be loaded. -/
inductive LoadError where
  | empty
  | missingHeaders
  | duplicateHeader (name : String)
  deriving DecidableEq

/-- The message of a load error. -/
def LoadError.message : LoadError → String
  | empty => "CSV file is empty or invalid"
  | missingHeaders => "csv input has no headers"
  | duplicateHeader name => "Invalid CSV: Duplicate column name found: '" ++ name ++ "'"

/-- The column names of a table in order, and the types of the columns. -/
structure Schema where
  headers : List String
  types : Record ColumnType
  deriving DecidableEq

namespace Schema

/-- The schema without columns. -/
def empty : Schema := ⟨[], .empty⟩

/-- The schema with one more column on the right, whose name must be new. -/
def addColumn (s : Schema) (name : String) (t : ColumnType) : Except LoadError Schema :=
  if s.types.contains name then .error (.duplicateHeader name)
  else .ok ⟨s.headers ++ [name], s.types.insert name t⟩

/-- The schema with the given columns, whose names must be distinct. -/
def ofColumns (columns : List (String × ColumnType)) : Except LoadError Schema :=
  columns.foldlM (fun s c => s.addColumn c.1 c.2) empty

/-- The type of a column. -/
def type? (s : Schema) (name : String) : Option ColumnType :=
  s.types.get? name

/-- Whether the schema has a type for a column. -/
def contains (s : Schema) (name : String) : Bool :=
  s.types.contains name

/-- The number of column names. -/
def size (s : Schema) : Nat := s.headers.length

/-- Whether the schema names no column. -/
def isEmpty (s : Schema) : Bool := s.headers.isEmpty

/-- The columns that have a type, in header order. -/
def columns (s : Schema) : List (String × ColumnType) :=
  s.headers.filterMap fun name => (s.type? name).map (name, ·)

end Schema

end TableQuery
