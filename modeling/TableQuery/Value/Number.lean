import TableQuery.Text.Quoted
import TableQuery.Value.Basic

/-!
# Values as numbers

`Value.number` is the double nearest to a numeric value, and `Value.compareNumbers` the
numeric order of two values: integers compare exactly, and a pair with a float in it
compares as doubles.
-/

namespace TableQuery

/-- Why a value is no number. -/
inductive NumberError where
  | missing
  | notNumeric (v : Value)
  deriving DecidableEq

/-- The message of a number error. -/
def NumberError.message : NumberError → String
  | missing => "value is missing"
  | notNumeric v =>
    "value " ++ Text.quoted v.display ++ " has non-numeric type " ++ v.typeName

namespace Value

/-- The double nearest to a numeric value. -/
def number : Value → Except NumberError Binary64
  | int i => .ok (.ofInt i.toInt)
  | float x => .ok x
  | null => .error .missing
  | v => .error (.notNumeric v)

/-- The numeric order of two doubles, with the total order where one is not a number. -/
def compareDoubles (x y : Binary64) : Ordering :=
  (Binary64.compareNumbers? x y).getD (Binary64.compareRanks x y)

/-- The numeric order of two values. -/
def compareNumbers (v w : Value) : Except NumberError Ordering :=
  match v, w with
  | int i, int j => .ok (compare i.toInt j.toInt)
  | v, w => do
    let x ← v.number
    let y ← w.number
    return compareDoubles x y

end Value

end TableQuery
