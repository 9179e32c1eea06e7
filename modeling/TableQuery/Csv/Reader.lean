import TableQuery.Text.Utf8
import TableQuery.Table.Dataset
import TableQuery.Csv.Records

/-!
# Reading CSV

`Csv.read` reads bytes as a table: the first record names the columns, and each further one
is a row of as many cells as both it and the first record have.
-/

namespace TableQuery.Csv

/-- A table as it is read: the column names, and the text of each cell. -/
structure RawTable where
  headers : List String
  rows : List RawRow
  deriving DecidableEq

/-- The table without columns. -/
def RawTable.empty : RawTable := ⟨[], []⟩

/-- Whether a table has neither columns nor rows. -/
def RawTable.isEmpty (t : RawTable) : Bool :=
  t.headers.isEmpty && t.rows.isEmpty

/-- A field that is no UTF-8: the number of its record, the line and the byte at which the
record starts, the number of the field, and the number of valid bytes in the field before
the fault.  Lines count from one, all else from zero. -/
structure InvalidText where
  record : Nat
  line : Nat
  byte : Nat
  field : Nat
  index : Nat
  deriving DecidableEq

/-- The message for a field that is no UTF-8. -/
def InvalidText.message (e : InvalidText) : String :=
  "CSV parse error: record " ++ toString e.record ++ " (line " ++ toString e.line ++
    ", field: " ++ toString e.field ++ ", byte: " ++ toString e.byte ++
    "): invalid utf-8: invalid UTF-8 in field " ++ toString e.field ++ " near byte index " ++
    toString e.index

/-- The texts of the fields of a record, or the number of the first one that is no text and
the number of valid bytes in it. -/
def decodeFields : List (List UInt8) → Nat → Except (Nat × Nat) (List String)
  | [], _ => .ok []
  | f :: rest, field =>
    match Text.decode f with
    | .error index => .error (field, index)
    | .ok s => (decodeFields rest (field + 1)).map (s :: ·)

/-- The texts of the fields of record number `record` of a text. -/
def decodeRecord (bytes : List UInt8) (record : Nat) (r : RawRecord) :
    Except InvalidText (List String) :=
  (decodeFields r.fields 0).mapError fun (field, index) =>
    { record, line := (bytes.take r.start).count 0x0A + 1, byte := r.start, field, index }

/-- The texts of the fields of records that are numbered from `first` on. -/
def decodeRecords (bytes : List UInt8) : Nat → List RawRecord →
    Except InvalidText (List (List String))
  | _, [] => .ok []
  | first, r :: rest =>
    match decodeRecord bytes first r with
    | .error e => .error e
    | .ok fields => (decodeRecords bytes (first + 1) rest).map (fields :: ·)

/-- The row with the given fields under the column names. -/
def rowOf (headers fields : List String) : RawRow :=
  .ofList (headers.zip fields)

/-- The table in a CSV text. -/
def read (bytes : List UInt8) : Except InvalidText RawTable :=
  (decodeRecords bytes 0 (records bytes)).map fun
    | [] => .empty
    | headers :: rows => ⟨headers, rows.map (rowOf headers)⟩

end TableQuery.Csv
