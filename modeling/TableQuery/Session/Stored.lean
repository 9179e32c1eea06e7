import TableQuery.Table.Stored
import TableQuery.Filter.Stored
import TableQuery.Session.Basic

/-!
# Stored requests and views

The JSON forms of a request and of a view, and the report of a view, in which every row is
an object with its cells as plain JSON values.
-/

namespace TableQuery

namespace ViewRequest

/-- The JSON form of a request. -/
def toJson (q : ViewRequest) : Json :=
  .object
    [("filter", .string q.filter),
     ("sort", match q.sort? with | some k => k.toJson | none => .null),
     ("page", .nat q.page.toNat),
     ("size", match q.size? with | some n => .nat n.toNat | none => .null)]

/-- Reads a request. -/
def decode : Json.Decoder ViewRequest := fun r j => do
  match ← Json.fields? ["filter", "sort", "page", "size"] r j with
  | (r, [filter, sort, page, size]) =>
    return {
      filter := ← Json.orElse "" Json.Decoder.text r filter
      sort? := ← Json.orElse none (Json.Decoder.optional SortKey.decode) r sort
      page := ← Json.orElse 0 Json.Decoder.word r page
      size? := ← Json.orElse none (Json.Decoder.optional Json.Decoder.word) r size }
  | _ => none

end ViewRequest

/-- A value as plain JSON. -/
def Value.toPlainJson : Value → Json
  | null => .null
  | bool b => .bool b
  | int i => .int i.toInt
  | float x => .float x
  | text s => .string s

namespace View

/-- The JSON form of a view. -/
def toJson (v : View) : Json :=
  .object
    [("headers", .array (v.headers.map .string)), ("page", v.page.toJson Row.toJson),
     ("total_pages", .nat v.page.count), ("stats", v.stats.toJson)]

/-- A row as an object with the cells in header order. -/
def rowReport (headers : List String) (row : Row) : Json :=
  .object (headers.map fun name => (name, (row.cell name).toPlainJson))

/-- The report of a view. -/
def report (v : View) : Json :=
  .object
    [("headers", .array (v.headers.map .string)),
     ("rows", .array (v.page.content.map (rowReport v.headers))),
     ("page", .nat v.page.index.toNat), ("size", .nat v.page.size.toNat),
     ("total", .nat v.page.total), ("total_pages", .nat v.page.count),
     ("has_next", .bool v.page.hasNext), ("stats", v.stats.toJson)]

end View

end TableQuery
