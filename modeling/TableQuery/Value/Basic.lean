import TableQuery.Number.Notation

/-!
# Values and column types

A `Value` is the content of a cell: missing, or a boolean, an integer, a float or a text.
The columns of a table have a `ColumnType`; the types are ordered from the most to the
least specific, and `ColumnType.widen?` steps along this order.
-/

namespace TableQuery

/-- The types of a column, from the most to the least specific. -/
inductive ColumnType where
  | integer
  | float
  | boolean
  | string
  deriving DecidableEq, Repr

namespace ColumnType

/-- The place of a type in the order from the most to the least specific. -/
def rank : ColumnType → Nat
  | integer => 0
  | float => 1
  | boolean => 2
  | string => 3

instance : Ord ColumnType := ⟨fun s t => compare s.rank t.rank⟩

instance : LE ColumnType := ⟨fun s t => s.rank ≤ t.rank⟩

instance (s t : ColumnType) : Decidable (s ≤ t) :=
  inferInstanceAs (Decidable (s.rank ≤ t.rank))

/-- The next less specific type. -/
def widen? : ColumnType → Option ColumnType
  | integer => some float
  | float => some boolean
  | boolean => some string
  | string => none

/-- The name of a type in messages. -/
def name : ColumnType → String
  | integer => "Integer"
  | float => "Float"
  | boolean => "Boolean"
  | string => "String"

/-- The name in messages of the type of a value, which may be missing. -/
def nameOf : Option ColumnType → String
  | none => "Null"
  | some t => t.name

theorem rank_of_widen {s t : ColumnType} (h : s.widen? = some t) :
  t.rank = s.rank + 1
  := by
  cases s <;> cases h <;> rfl

/-- Widening comes to an end with the strings. -/
theorem rank_sub_lt_of_widen {s t : ColumnType} (h : s.widen? = some t) :
  string.rank - t.rank < string.rank - s.rank
  := by
  have hlast : t.rank ≤ string.rank := by cases t <;> decide
  rw [rank_of_widen h] at hlast ⊢
  omega

end ColumnType

/-- The content of a cell. -/
inductive Value where
  | null
  | bool (b : Bool)
  | int (i : Int64)
  | float (x : Binary64)
  | text (s : String)
  deriving DecidableEq

namespace Value

instance : Inhabited Value := ⟨null⟩

/-- The column type that holds a value; a missing value has none. -/
def type? : Value → Option ColumnType
  | null => none
  | bool _ => some .boolean
  | int _ => some .integer
  | float _ => some .float
  | text _ => some .string

/-- The name of a value's type in messages. -/
def typeName (v : Value) : String :=
  ColumnType.nameOf v.type?

/-- Whether the value is missing. -/
def isNull : Value → Bool
  | null => true
  | _ => false

/-- Whether the value is an integer or a float. -/
def isNumeric : Value → Bool
  | int _ | float _ => true
  | _ => false

/-- The text of a text value. -/
def text? : Value → Option String
  | text s => some s
  | _ => none

/-- An integer in decimal. -/
def intText (i : Int64) : String :=
  String.ofList ((if i.toInt < 0 then ['-'] else []) ++ toDigits i.toInt.natAbs)

/-- The text form of a value, as it stands in a written table.  A missing value has the
empty text, and a whole float keeps its `.0`, so that its text reads as a float again. -/
def display : Value → String
  | null => ""
  | bool true => "true"
  | bool false => "false"
  | int i => intText i
  | float x => x.plain
  | text s => s

theorem isNull_iff (v : Value) :
  v.isNull = true ↔ v = null
  := by
  cases v <;> simp [isNull]

end Value

end TableQuery
