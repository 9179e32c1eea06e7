import TableQuery.Value.Basic
import TableQuery.Json.Decode

/-!
# Stored values

The JSON forms of a value and of a column type.  A value is an object with its kind and, if
it is not missing, its content; it may be read from an array of the two as well.
-/

namespace TableQuery

/-- The stored names of the column types. -/
def ColumnType.storedNames : List (String × ColumnType) :=
  [("int64", .integer), ("float64", .float), ("bool", .boolean), ("utf8", .string)]

/-- The stored name of a column type. -/
def ColumnType.storedName : ColumnType → String
  | integer => "int64"
  | float => "float64"
  | boolean => "bool"
  | string => "utf8"

/-- Reads a column type. -/
def ColumnType.decode : Json.Decoder ColumnType :=
  Json.Decoder.constant storedNames

namespace Value

/-- The stored names of the kinds of values, in their stored order: `none` stands for a
missing value. -/
def storedKinds : List (String × Option ColumnType) :=
  [("null", none), ("bool", some .boolean), ("int64", some .integer),
   ("float64", some .float), ("utf8", some .string)]

/-- The JSON form of a value. -/
def toJson : Value → Json
  | null => .object [("kind", .string "null")]
  | bool b => .object [("kind", .string "bool"), ("value", .bool b)]
  | int i => .object [("kind", .string "int64"), ("value", .int i.toInt)]
  | float x => .object [("kind", .string "float64"), ("value", .float x)]
  | text s => .object [("kind", .string "utf8"), ("value", .string s)]

/-- Reads the content of a value of the given kind. -/
def decodeContent (r : Json.Reach) : Option ColumnType → Option Json → Option Value
  | none, none => some null
  | none, some .null => some null
  | none, some _ => none
  | some .boolean, j => (Json.required Json.Decoder.bool r j).map bool
  | some .integer, j => (Json.required Json.Decoder.int64 r j).map int
  | some .float, j => (Json.required Json.Decoder.float r j).map float
  | some .string, j => (Json.required Json.Decoder.text r j).map text

/-- Reads a value.  The kind is a constant in an object and a label in an array. -/
def decode : Json.Decoder Value := fun r j => do
  let (inner, fields) ← Json.fields? ["kind", "value"] r j
  match j, fields with
  | .object _, [kind, content] =>
    decodeContent inner (← Json.required (Json.Decoder.constant storedKinds) inner kind) content
  | .array _, [some kind, some content] =>
    decodeContent inner (← Json.Decoder.label storedKinds inner kind) (some content)
  | _, _ => none

end Value

end TableQuery
