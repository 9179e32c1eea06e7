import TableQuery.Text.Blank
import TableQuery.Text.Quoted
import TableQuery.Value.Reading
import TableQuery.Table.Dataset

/-!
# Sorting

A `SortKey` is a column and a direction.  `SortKey.sort` sorts rows by it and keeps rows
with equal cells in their order.  A missing cell comes before every value, and descending
order reverses this too.
-/

namespace TableQuery

/-- The directions of a sort. -/
inductive SortDirection where
  | ascending
  | descending
  deriving DecidableEq, Repr

namespace SortDirection

instance : Inhabited SortDirection := ⟨ascending⟩

/-- The order of two rows in this direction, from their ascending order. -/
def apply : SortDirection → Ordering → Ordering
  | ascending, o => o
  | descending, o => o.swap

/-- The name of a direction in messages. -/
def name : SortDirection → String
  | ascending => "ASC"
  | descending => "DESC"

/-- The direction that a word names, in any case and with blanks around it. -/
def read? (s : String) : Option SortDirection :=
  let word := Text.trim s.toList
  if Text.spells "asc" word || Text.spells "ascending" word then some ascending
  else if Text.spells "desc" word || Text.spells "descending" word then some descending
  else none

/-- The message for a text that names no direction. -/
def unknownMessage (s : String) : String :=
  "invalid sort direction " ++ Text.quoted s ++ "; expected ASC or DESC"

end SortDirection

/-- The order of two values in a sort: the natural one for values of one kind, and that of
their texts for values of different kinds. -/
def Value.compareForSort (v w : Value) : Ordering :=
  match v, w with
  | .int i, .int j => compare i.toInt j.toInt
  | .float x, .float y => x.compareRanks y
  | .bool b, .bool c => compare b c
  | .text s, .text t => compare s t
  | v, w => compare v.display w.display

/-- The order of two cells in a sort, in which a missing cell comes first. -/
def Value.compareCells (v w : Value) : Ordering :=
  match v, w with
  | .null, .null => .eq
  | .null, _ => .lt
  | _, .null => .gt
  | v, w => v.compareForSort w

/-- What to sort by. -/
structure SortKey where
  column : String
  direction : SortDirection
  deriving DecidableEq

namespace SortKey

/-- The order of two rows under the key. -/
def compare (k : SortKey) (r s : Row) : Ordering :=
  k.direction.apply ((r.cell k.column).compareCells (s.cell k.column))

/-- The rows in the order of the key, rows that compare equal staying in place. -/
def sort (k : SortKey) (rows : List Row) : List Row :=
  rows.mergeSort fun r s => (k.compare r s).isLE

end SortKey

/-- The rows sorted by a key.  They stay as they are when there is no key, or when the
schema does not have the column. -/
def sortRows (schema : Schema) (key? : Option SortKey) (rows : List Row) : List Row :=
  match key? with
  | some k => if schema.contains k.column then k.sort rows else rows
  | none => rows

end TableQuery
