import TableQuery.Json.Number

/-!
# Reading JSON

`Json.read?` reads a text that is one JSON value with white space around it, and nothing
else.  Each part of the grammar is a function from the characters ahead to the part and the
characters after it.
-/

namespace TableQuery.Json

/-- The white space between the tokens of a JSON text. -/
def isSpace (c : Char) : Bool :=
  c = ' ' || c = '\t' || c = '\n' || c = '\r'

/-- The characters from the next token on. -/
def skipSpace (cs : List Char) : List Char :=
  cs.dropWhile isSpace

/-! ### Numbers -/

/-- A run of one or more digits. -/
def digitRun? (cs : List Char) : Option (List Char × List Char) :=
  let (digits, rest) := cs.span Char.isDigit
  if digits.isEmpty then none else some (digits, rest)

/-- The digits before the point: a zero alone, or digits that do not start with zero. -/
def wholePart? : List Char → Option (List Char × List Char)
  | '0' :: rest => some (['0'], rest)
  | cs => digitRun? cs

/-- The digits after the point, if there is a point. -/
def fractionPart? : List Char → Option (List Char × List Char)
  | '.' :: rest => digitRun? rest
  | cs => some ([], cs)

/-- The exponent, if there is one. -/
def exponentPart? : List Char → Option (Option Int × List Char)
  | c :: rest =>
    if c = 'e' ∨ c = 'E' then
      let (negative, rest) := readSign rest
      (digitRun? rest).map fun (digits, rest) =>
        (some (if negative then -ofDigits digits else ofDigits digits), rest)
    else some (none, c :: rest)
  | [] => some (none, [])

/-- A number. -/
def number? (cs : List Char) : Option (Json × List Char) := do
  let (negative, cs) :=
    match cs with
    | '-' :: rest => (true, rest)
    | cs => (false, cs)
  let (whole, cs) ← wholePart? cs
  let (fraction, cs) ← fractionPart? cs
  let (exponent?, cs) ← exponentPart? cs
  return (ofNumeral { negative, whole, fraction, exponent? }, cs)

/-! ### Strings -/

/-- The value of a hexadecimal digit. -/
def hexDigit? (c : Char) : Option Nat :=
  if c.isDigit then some (c.toNat - '0'.toNat)
  else if 'a' ≤ c ∧ c ≤ 'f' then some (c.toNat - 'a'.toNat + 10)
  else if 'A' ≤ c ∧ c ≤ 'F' then some (c.toNat - 'A'.toNat + 10)
  else none

/-- The number that four hexadecimal digits spell. -/
def hexUnit? (a b c d : Char) : Option Nat := do
  return (((← hexDigit? a) * 16 + (← hexDigit? b)) * 16 + (← hexDigit? c)) * 16 + (← hexDigit? d)

/-- The character that a backslash and `c` stand for. -/
def shortEscape? (c : Char) : Option Char :=
  if c = '"' ∨ c = '\\' ∨ c = '/' then some c
  else if c = 'b' then some '\x08'
  else if c = 'f' then some '\x0c'
  else if c = 'n' then some '\n'
  else if c = 'r' then some '\r'
  else if c = 't' then some '\t'
  else none

/-- The code units of a string after its opening quote, and the characters after the closing
one.  An escape may be half of a surrogate pair. -/
def stringUnits? : List Char → List Nat → Option (List Nat × List Char)
  | '"' :: rest, units => some (units.reverse, rest)
  | '\\' :: 'u' :: a :: b :: c :: d :: rest, units =>
    match hexUnit? a b c d with
    | some n => stringUnits? rest (n :: units)
    | none => none
  | '\\' :: c :: rest, units =>
    match shortEscape? c with
    | some e => stringUnits? rest (e.toNat :: units)
    | none => none
  | c :: rest, units => if c.toNat < 0x20 then none else stringUnits? rest (c.toNat :: units)
  | [], _ => none

/-- The characters of a sequence of code units, in which both halves of a surrogate pair
stand together. -/
def joinUnits? : List Nat → Option (List Char)
  | [] => some []
  | [n] => if n.isValidChar then some [Char.ofNat n] else none
  | high :: low :: rest =>
    if 0xD800 ≤ high ∧ high < 0xDC00 then
      if 0xDC00 ≤ low ∧ low < 0xE000 then
        (joinUnits? rest).map
          (Char.ofNat (0x10000 + (high - 0xD800) * 0x400 + (low - 0xDC00)) :: ·)
      else none
    else if high.isValidChar then (joinUnits? (low :: rest)).map (Char.ofNat high :: ·)
    else none

/-- A string after its opening quote; it is `none` when it holds half of a surrogate
pair. -/
def stringBody? (cs : List Char) : Option (Option String × List Char) :=
  (stringUnits? cs []).map fun (units, rest) => ((joinUnits? units).map String.ofList, rest)

/-! ### Values -/

/-- The word `word` at the start of `cs`, standing for `value`. -/
def word? (word : String) (value : Json) (cs : List Char) : Option (Json × List Char) :=
  if word.toList.isPrefixOf cs then some (value, cs.drop word.length) else none

/-- An object with the given members, of which the names must be readable. -/
def ofMembers (members : List (Option String × Json)) : Json :=
  match members.mapM fun (name, value) => name.map (·, value) with
  | some members => object members
  | none => unreadable

mutual

/-- A value, with `fuel` bounding the recursion. -/
def value? : Nat → List Char → Option (Json × List Char)
  | 0, _ => none
  | fuel + 1, cs =>
    match skipSpace cs with
    | '"' :: rest =>
      (stringBody? rest).map fun (s, rest) => (s.elim unreadable string, rest)
    | '[' :: rest =>
      match skipSpace rest with
      | ']' :: rest => some (array [], rest)
      | rest => items? fuel rest []
    | '{' :: rest =>
      match skipSpace rest with
      | '}' :: rest => some (object [], rest)
      | rest => members? fuel rest []
    | 'n' :: rest => word? "null" null ('n' :: rest)
    | 't' :: rest => word? "true" (bool true) ('t' :: rest)
    | 'f' :: rest => word? "false" (bool false) ('f' :: rest)
    | rest => number? rest

/-- The items of an array that are still to come, after the reversed list `seen`. -/
def items? : Nat → List Char → List Json → Option (Json × List Char)
  | 0, _, _ => none
  | fuel + 1, cs, seen =>
    match value? fuel cs with
    | none => none
    | some (j, rest) =>
      match skipSpace rest with
      | ',' :: rest => items? fuel rest (j :: seen)
      | ']' :: rest => some (array (j :: seen).reverse, rest)
      | _ => none

/-- The members of an object that are still to come, after the reversed list `seen`. -/
def members? :
    Nat → List Char → List (Option String × Json) → Option (Json × List Char)
  | 0, _, _ => none
  | fuel + 1, cs, seen =>
    match skipSpace cs with
    | '"' :: rest =>
      match stringBody? rest with
      | none => none
      | some (name, rest) =>
        match skipSpace rest with
        | ':' :: rest =>
          match value? fuel rest with
          | none => none
          | some (j, rest) =>
            match skipSpace rest with
            | ',' :: rest => members? fuel rest ((name, j) :: seen)
            | '}' :: rest => some (ofMembers ((name, j) :: seen).reverse, rest)
            | _ => none
        | _ => none
    | _ => none

end

/-- The value of a JSON text.  Every level of the recursion reads a character or ends, or is
one of the two levels around a value, so twice the length bounds the depth. -/
def read? (s : String) : Option Json :=
  let cs := s.toList
  match value? (2 * cs.length + 2) cs with
  | some (j, rest) => if (skipSpace rest).isEmpty then some j else none
  | none => none

end TableQuery.Json
