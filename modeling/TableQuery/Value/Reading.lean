import TableQuery.Text.Ascii
import TableQuery.Text.Blank
import TableQuery.Text.Quoted
import TableQuery.Value.Basic

/-!
# Reading values from text

`Value.read` reads the text of a cell under a column type.  Numbers and booleans may have
blanks around them, and booleans may be written in any case; a text is taken as it is.
`isNullText` says which cells carry no value at all.
-/

namespace TableQuery

/-- Whether the text of a cell stands for a missing value: it is blank, or says null. -/
def isNullText (s : String) : Bool :=
  let cs := Text.trim s.toList
  cs.isEmpty || Text.spells "null" cs

/-- The text `text` is no value of the type `type`. -/
structure ReadError where
  text : String
  type : ColumnType
  deriving DecidableEq

/-- The message of a reading error. -/
def ReadError.message (e : ReadError) : String :=
  "cannot parse " ++ Text.quoted e.text ++ " as " ++ e.type.name

namespace Value

/-- A boolean, its case left open. -/
def readBool? (cs : List Char) : Option Bool :=
  if Text.spells "true" cs then some true
  else if Text.spells "false" cs then some false
  else none

/-- The value that a text spells under a column type, if any. -/
def read? (t : ColumnType) (s : String) : Option Value :=
  let cs := Text.trim s.toList
  match t with
  | .integer => (readInt64? cs).map int
  | .float => (Binary64.read? cs).map float
  | .boolean => (readBool? cs).map bool
  | .string => some (text s)

/-- The value that a text spells under a column type. -/
def read (t : ColumnType) (s : String) : Except ReadError Value :=
  match read? t s with
  | some v => .ok v
  | none => .error ⟨s, t⟩

end Value

/-- Whether a text spells a value of the type. -/
def ColumnType.accepts (t : ColumnType) (s : String) : Bool :=
  (Value.read? t s).isSome

/-- Every text is a text value. -/
theorem ColumnType.accepts_string (s : String) :
  ColumnType.string.accepts s = true
  := rfl

end TableQuery
