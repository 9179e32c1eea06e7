import TableQuery.Number.Decimal
import TableQuery.Json.Basic
import TableQuery.Table.Record

/-!
# Reading values from JSON trees

A `Decoder α` reads a tree as an `α`.  Arrays and objects may nest only so deep, unless the
tree has been read in full before, which a `Reach` keeps track of.  A structure is an object
with its fields as members, or an array of its fields in order; members that name no field
are passed over, whatever they hold.  A constant is its name, or an object with that name as
its only member.
-/

namespace TableQuery.Json

/-- How many levels of arrays and objects may still be entered; `none` inside a tree that
has been read in full. -/
abbrev Reach := Option Nat

/-- The reach from inside an array or object. -/
def Reach.enter? : Reach → Option Reach
  | none => some none
  | some 0 => none
  | some (n + 1) => some (some n)

/-- The reach at the top of a text. -/
def Reach.top : Reach := some 127

/-- Reads a tree as an `α`. -/
abbrev Decoder (α : Type) := Reach → Json → Option α

namespace Decoder

variable {α : Type}

/-- A string. -/
def text : Decoder String
  | _, .string s => some s
  | _, _ => none

/-- A boolean. -/
def bool : Decoder Bool
  | _, .bool b => some b
  | _, _ => none

/-- A 64-bit integer with a sign. -/
def int64 : Decoder Int64
  | _, .int i => fitInt64? i
  | _, _ => none

/-- A 64-bit integer without a sign. -/
def word : Decoder UInt64
  | _, .int i => fitWord? i
  | _, _ => none

/-- A double, which may be written as an integer. -/
def float : Decoder Binary64
  | _, .int i => some (.ofInt i)
  | _, .float x => some x
  | _, _ => none

/-- Null, or an `α`. -/
def optional (d : Decoder α) : Decoder (Option α)
  | _, .null => some none
  | r, j => (d r j).map some

/-- An array. -/
def list (d : Decoder α) : Decoder (List α)
  | r, .array items => do
    let r ← r.enter?
    items.mapM (d r)
  | _, _ => none

/-- An object read as a record, in which the last member of a name counts. -/
def record (d : Decoder α) : Decoder (Record α)
  | r, .object members => do
    let r ← r.enter?
    let cells ← members.mapM fun (name, j) => (d r j).map (name, ·)
    return .ofList cells
  | _, _ => none

/-- One of some labels, each with its name.  Inside a tree that has been read in full its
number in the list of labels does as well as its name. -/
def label (names : List (String × α)) : Decoder α
  | _, .string s => names.lookup s
  | none, .int i => if 0 ≤ i then (names[i.toNat]?).map Prod.snd else none
  | _, _ => none

/-- One of some constants, each with its name. -/
def constant (names : List (String × α)) : Decoder α
  | _, .string s => names.lookup s
  | r, .object [(name, j)] =>
    match r, j with
    | none, .null | none, .object [] | some (_ + 1), .null => names.lookup name
    | _, _ => none
  | _, _ => none

end Decoder

/-- The values of the members with a name. -/
def valuesOf (name : String) (members : List (String × Json)) : List Json :=
  members.filterMap fun (k, j) => if k = name then some j else none

/-- The value of a field among the members of an object; `none` if it occurs twice. -/
def field? (members : List (String × Json)) (name : String) : Option (Option Json) :=
  match valuesOf name members with
  | [] => some none
  | [j] => some (some j)
  | _ => none

/-- The fields of a structure in the order of their names, as far as they are given, and the
reach to read them with. -/
def fields? (names : List String) (r : Reach) (j : Json) : Option (Reach × List (Option Json)) := do
  let inner ← r.enter?
  match j with
  | object members => return (inner, ← names.mapM (field? members))
  | array items =>
    if items.length ≤ names.length then
      return (inner, items.map some ++ List.replicate (names.length - items.length) none)
    else none
  | _ => none

/-- A field that must be given. -/
def required {α : Type} (d : Decoder α) (r : Reach) : Option Json → Option α
  | some j => d r j
  | none => none

/-- A field with a value of its own when it is not given. -/
def orElse {α : Type} (a : α) (d : Decoder α) (r : Reach) : Option Json → Option α
  | some j => d r j
  | none => some a

end TableQuery.Json
