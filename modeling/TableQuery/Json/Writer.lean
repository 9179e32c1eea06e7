import TableQuery.Number.Notation
import TableQuery.Json.Basic

/-!
# Writing JSON

`Json.compact` writes a tree without white space, and `Json.pretty` one item or member to a
line, two spaces for each level.  What has no JSON form, such as an infinite float, is
written as null.
-/

namespace TableQuery.Json

/-- How a character is written inside a string. -/
def escape (c : Char) : List Char :=
  if c = '"' then ['\\', '"']
  else if c = '\\' then ['\\', '\\']
  else if c = '\x08' then ['\\', 'b']
  else if c = '\x0c' then ['\\', 'f']
  else if c = '\n' then ['\\', 'n']
  else if c = '\r' then ['\\', 'r']
  else if c = '\t' then ['\\', 't']
  else if c.toNat < 0x10 then ['\\', 'u', '0', '0', '0'] ++ Nat.toDigits 16 c.toNat
  else if c.toNat < 0x20 then ['\\', 'u', '0', '0'] ++ Nat.toDigits 16 c.toNat
  else [c]

/-- A string between quotes. -/
def stringText (s : String) : List Char :=
  '"' :: s.toList.flatMap escape ++ ['"']

/-- An integer in decimal. -/
def intText (i : Int) : List Char :=
  (if i < 0 then ['-'] else []) ++ toDigits i.natAbs

/-- A float, or null if it is not finite. -/
def floatText (x : Binary64) : List Char :=
  if x.isFinite then x.scientific.toList else "null".toList

/-- A line break and the spaces of `level` levels. -/
def newLine (level : Nat) : List Char :=
  '\n' :: List.replicate (2 * level) ' '

/-- The characters between the tokens of a tree: a break after an opening bracket and each
comma on a level, and a break before a closing bracket. -/
structure Layout where
  lineBreak : Nat → List Char
  afterColon : List Char

/-- Nothing between tokens. -/
def Layout.compact : Layout := ⟨fun _ => [], []⟩

/-- A line for each item and member. -/
def Layout.pretty : Layout := ⟨newLine, [' ']⟩

mutual

/-- The text of a tree that stands on `level` levels. -/
def write (l : Layout) (level : Nat) : Json → List Char
  | null => "null".toList
  | bool true => "true".toList
  | bool false => "false".toList
  | int i => intText i
  | float x => floatText x
  | string s => stringText s
  | array [] => ['[', ']']
  | array (j :: rest) =>
    '[' :: l.lineBreak (level + 1) ++ write l (level + 1) j ++ writeItems l (level + 1) rest ++
      l.lineBreak level ++ [']']
  | object [] => ['{', '}']
  | object ((name, j) :: rest) =>
    '{' :: l.lineBreak (level + 1) ++ stringText name ++ ':' :: l.afterColon ++
      write l (level + 1) j ++ writeMembers l (level + 1) rest ++ l.lineBreak level ++ ['}']
  | unreadable => "null".toList

/-- The further items of an array, each after a comma. -/
def writeItems (l : Layout) (level : Nat) : List Json → List Char
  | [] => []
  | j :: rest => ',' :: l.lineBreak level ++ write l level j ++ writeItems l level rest

/-- The further members of an object, each after a comma. -/
def writeMembers (l : Layout) (level : Nat) : List (String × Json) → List Char
  | [] => []
  | (name, j) :: rest =>
    ',' :: l.lineBreak level ++ stringText name ++ ':' :: l.afterColon ++ write l level j ++
      writeMembers l level rest

end

/-- The text of a tree without white space. -/
def compact (j : Json) : String :=
  String.ofList (write .compact 0 j)

/-- The text of a tree with a line for each item and member. -/
def pretty (j : Json) : String :=
  String.ofList (write .pretty 0 j)

end TableQuery.Json
