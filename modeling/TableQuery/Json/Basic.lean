import TableQuery.Number.Binary64

/-!
# JSON values

`Json` is the tree of a JSON text.  An object keeps its members in order, repeated names
included.  A text can be well-formed JSON and still hold parts that denote nothing: a number
beyond the doubles, or a string with half of a surrogate pair.  Such a part is `unreadable`;
it does no harm where the reader of the tree does not look at it.
-/

namespace TableQuery

/-- The tree of a JSON text. -/
inductive Json where
  | null
  | bool (b : Bool)
  | int (i : Int)
  | float (x : Binary64)
  | string (s : String)
  | array (items : List Json)
  | object (members : List (String × Json))
  | unreadable

namespace Json

instance : Inhabited Json := ⟨null⟩

/-- A natural number. -/
def nat (n : Nat) : Json := int n

mutual

/-- Whether every part of the tree denotes something and arrays and objects nest at most
`levels` deep. -/
def isReadable (levels : Nat) : Json → Bool
  | array items => 0 < levels && areReadable (levels - 1) items
  | object members => 0 < levels && areReadableMembers (levels - 1) members
  | unreadable => false
  | _ => true

/-- Whether every tree in a list is readable. -/
def areReadable (levels : Nat) : List Json → Bool
  | [] => true
  | j :: rest => isReadable levels j && areReadable levels rest

/-- Whether the value of every member is readable. -/
def areReadableMembers (levels : Nat) : List (String × Json) → Bool
  | [] => true
  | (_, j) :: rest => isReadable levels j && areReadableMembers levels rest

end

end Json

end TableQuery
