/-!
# Records of a CSV text

`records` splits the bytes of a CSV text into records and fields.  A line feed or a carriage
return ends a record, and empty lines are skipped.  A field that starts with a quote runs to
the closing quote, a doubled quote inside standing for one, and what follows the closing
quote is appended as it is.
-/

namespace TableQuery.Csv

/-- The byte between fields. -/
def comma : UInt8 := 0x2C

/-- The byte around a field that holds other special bytes. -/
def quote : UInt8 := 0x22

/-- The bytes that end a record. -/
def isLineEnd (b : UInt8) : Bool :=
  b = 0x0A || b = 0x0D

/-- Where in a text the next byte stands. -/
inductive Place where
  /-- Before the first byte of a record. -/
  | outside
  /-- Before the first byte of a field. -/
  | fieldStart
  /-- In a field, where quotes have no meaning. -/
  | plain
  /-- Between quotes. -/
  | quoted
  /-- After a quote that closes the quoted part, or is the first of two. -/
  | afterQuote
  deriving DecidableEq, Repr

/-- A text being split: the bytes of the current field and the fields of the current record,
both last first. -/
structure Scan where
  place : Place
  field : List UInt8
  fields : List (List UInt8)

namespace Scan

/-- The start of a text. -/
def start : Scan := ⟨.outside, [], []⟩

/-- Takes a byte into the current field. -/
def take (s : Scan) (b : UInt8) (place : Place) : Scan :=
  { s with place, field := b :: s.field }

/-- Ends the current field. -/
def endField (s : Scan) : Scan :=
  ⟨.fieldStart, [], s.field.reverse :: s.fields⟩

/-- The record that ends here. -/
def record (s : Scan) : List (List UInt8) :=
  s.endField.fields.reverse

/-- Moves over a byte that is not between quotes and does not open them. -/
def stepPlain (s : Scan) (b : UInt8) : Scan × Option (List (List UInt8)) :=
  if b = comma then (s.endField, none)
  else if isLineEnd b then (start, some s.record)
  else (s.take b .plain, none)

/-- Moves over a byte, which may end a record. -/
def step (s : Scan) (b : UInt8) : Scan × Option (List (List UInt8)) :=
  match s.place with
  | .outside =>
    if isLineEnd b then (s, none)
    else if b = quote then ({ s with place := .quoted }, none)
    else s.stepPlain b
  | .fieldStart =>
    if b = quote then ({ s with place := .quoted }, none) else s.stepPlain b
  | .plain => s.stepPlain b
  | .quoted =>
    if b = quote then ({ s with place := .afterQuote }, none) else (s.take b .quoted, none)
  | .afterQuote =>
    if b = quote then (s.take b .quoted, none) else s.stepPlain b

/-- The record that the end of the text ends. -/
def finish (s : Scan) : Option (List (List UInt8)) :=
  if s.place = .outside then none else some s.record

end Scan

/-- The fields of a record, and the number of bytes up to the end of the record before it. -/
structure RawRecord where
  start : Nat
  fields : List (List UInt8)

/-- The records that are still to end, `offset` bytes into a text of which the record under
way began at `start`. -/
def recordsFrom (start offset : Nat) (s : Scan) : List UInt8 → List RawRecord
  | [] => s.finish.toList.map (⟨start, ·⟩)
  | b :: rest =>
    match s.step b with
    | (s, none) => recordsFrom start (offset + 1) s rest
    | (s, some fields) => ⟨start, fields⟩ :: recordsFrom (offset + 1) (offset + 1) s rest

/-- The byte order mark in UTF-8. -/
def byteOrderMark : List UInt8 := [0xEF, 0xBB, 0xBF]

/-- The records of a text, which may start with a byte order mark. -/
def records (bytes : List UInt8) : List RawRecord :=
  if byteOrderMark.isPrefixOf bytes then recordsFrom 0 3 .start (bytes.drop 3)
  else recordsFrom 0 0 .start bytes

end TableQuery.Csv
