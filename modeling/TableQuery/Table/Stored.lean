import TableQuery.Value.Stored
import TableQuery.Table.Sort
import TableQuery.Table.Page

/-!
# Stored tables

The JSON forms of rows, schemas, datasets, sort keys and pages.
-/

namespace TableQuery

/-- The JSON form of a record. -/
def Record.toJson {α : Type} (cell : α → Json) (r : Record α) : Json :=
  .object (r.entries.map fun (name, a) => (name, cell a))

/-- The JSON form of a row. -/
def Row.toJson (r : Row) : Json :=
  Record.toJson Value.toJson r

/-- Reads a row. -/
def Row.decode : Json.Decoder Row :=
  Json.Decoder.record Value.decode

namespace Schema

/-- The JSON form of a schema. -/
def toJson (s : Schema) : Json :=
  .object
    [("headers", .array (s.headers.map .string)),
     ("dtypes", s.types.toJson fun t => .string t.storedName)]

/-- Reads a schema. -/
def decode : Json.Decoder Schema := fun r j => do
  match ← Json.fields? ["headers", "dtypes"] r j with
  | (r, [headers, types]) =>
    return ⟨← Json.required (Json.Decoder.list Json.Decoder.text) r headers,
      ← Json.required (Json.Decoder.record ColumnType.decode) r types⟩
  | _ => none

end Schema

namespace Dataset

/-- The JSON form of a dataset. -/
def toJson (d : Dataset) : Json :=
  .object [("schema", d.schema.toJson), ("rows", .array (d.rows.map Row.toJson))]

/-- Reads a dataset. -/
def decode : Json.Decoder Dataset := fun r j => do
  match ← Json.fields? ["schema", "rows"] r j with
  | (r, [schema, rows]) =>
    return ⟨← Json.required Schema.decode r schema,
      ← Json.required (Json.Decoder.list Row.decode) r rows⟩
  | _ => none

end Dataset

namespace SortDirection

/-- The stored names of the directions. -/
def storedNames : List (String × SortDirection) :=
  [("ascending", ascending), ("descending", descending)]

/-- The stored name of a direction. -/
def storedName : SortDirection → String
  | ascending => "ascending"
  | descending => "descending"

/-- Reads a direction. -/
def decode : Json.Decoder SortDirection :=
  Json.Decoder.constant storedNames

end SortDirection

namespace SortKey

/-- The JSON form of a sort key. -/
def toJson (k : SortKey) : Json :=
  .object [("column", .string k.column), ("direction", .string k.direction.storedName)]

/-- Reads a sort key. -/
def decode : Json.Decoder SortKey := fun r j => do
  match ← Json.fields? ["column", "direction"] r j with
  | (r, [column, direction]) =>
    return ⟨← Json.required Json.Decoder.text r column,
      ← Json.required SortDirection.decode r direction⟩
  | _ => none

end SortKey

/-- The JSON form of a page. -/
def Page.toJson {α : Type} (item : α → Json) (p : Page α) : Json :=
  .object
    [("content", .array (p.content.map item)), ("page_index", .nat p.index.toNat),
     ("page_size", .nat p.size.toNat), ("total", .nat p.total)]

end TableQuery
