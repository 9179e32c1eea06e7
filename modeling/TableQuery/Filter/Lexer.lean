import TableQuery.Text.Ascii
import TableQuery.Text.Letter
import TableQuery.Filter.Token

/-!
# Reading tokens

`shape` gives the kind and the length of the token at the start of a text, and `Lexer.next?`
takes tokens off a text one by one until the end of the text or the first error.
`Lexer.items` is the whole run, and `tokenize` the tokens of a text that has no error.
-/

namespace TableQuery.Filter

/-- Why there is no token at the start of a text. -/
inductive LexFault where
  | unexpectedCharacter (c : Char)
  | unterminatedString
  | invalidNumber (lexeme : String)
  deriving DecidableEq

/-- A fault and the number of bytes before it. -/
structure LexError where
  fault : LexFault
  position : Nat
  deriving DecidableEq

/-- The message of a lexical error. -/
def LexError.message (e : LexError) : String :=
  match e.fault with
  | .unexpectedCharacter c =>
    "Unexpected character '" ++ c.toString ++ "' at position " ++ toString e.position
  | .unterminatedString => "Unterminated string at position " ++ toString e.position
  | .invalidNumber lexeme =>
    "Invalid number '" ++ lexeme ++ "' at position " ++ toString e.position

/-! ### The token at the start of a text -/

/-- The white space between tokens. -/
def isGap (c : Char) : Bool :=
  c = ' ' || c = '\t' || c = '\r' || c = '\n'

/-- Whether a name can start with `c`. -/
def isNameStart (c : Char) : Bool :=
  Text.isLetter c || c = '_'

/-- Whether a name can go on with `c`. -/
def isNameChar (c : Char) : Bool :=
  Text.isWordChar c || c = '_'

/-- The kind and the length of the symbol at the start of a text.  A single `=` or `!`
means the same as a doubled one. -/
def symbol? : List Char → Option (Token.Kind × Nat)
  | '(' :: _ => some (.leftParen, 1)
  | ')' :: _ => some (.rightParen, 1)
  | '=' :: '=' :: _ => some (.equal, 2)
  | '=' :: _ => some (.equal, 1)
  | '!' :: '=' :: _ => some (.notEqual, 2)
  | '!' :: _ => some (.notEqual, 1)
  | '<' :: '=' :: _ => some (.lessEqual, 2)
  | '<' :: _ => some (.less, 1)
  | '>' :: '=' :: _ => some (.greaterEqual, 2)
  | '>' :: _ => some (.greater, 1)
  | _ => none

/-- The length of the string whose opening quote stands before `rest`, both quotes
included. -/
def stringLength? (rest : List Char) : Option Nat :=
  let body := rest.takeWhile (· ≠ '"')
  if body.length < rest.length then some (body.length + 2) else none

/-- The number of characters of the fraction at the start of a text, the point included.  A
point without a digit after it is no fraction. -/
def fractionLength : List Char → Nat
  | '.' :: rest =>
    let digits := rest.takeWhile Char.isDigit
    if digits.isEmpty then 0 else digits.length + 1
  | _ => 0

/-- The length of the number that starts with a digit before `rest`. -/
def numberLength (rest : List Char) : Nat :=
  let whole := rest.takeWhile Char.isDigit
  1 + whole.length + fractionLength (rest.drop whole.length)

/-- The kind of a word: a keyword in any case, or else a name. -/
def wordKind (lexeme : List Char) : Token.Kind :=
  if Text.spells "and" lexeme then .and
  else if Text.spells "or" lexeme then .or
  else if Text.spells "true" lexeme then .trueWord
  else if Text.spells "false" lexeme then .falseWord
  else if Text.spells "null" lexeme then .nullWord
  else if Text.spells "contains" lexeme then .contains
  else if Text.spells "startswith" lexeme then .startsWith
  else if Text.spells "endswith" lexeme then .endsWith
  else .identifier

/-- The kind and the length of the token that starts with `c` before `rest`. -/
def shape (c : Char) (rest : List Char) : Except LexFault (Token.Kind × Nat) :=
  match symbol? (c :: rest) with
  | some s => .ok s
  | none =>
    if c = '"' then
      match stringLength? rest with
      | some n => .ok (.string, n)
      | none => .error .unterminatedString
    else if c.isDigit then .ok (.number, numberLength rest)
    else if isNameStart c then
      let n := 1 + (rest.takeWhile isNameChar).length
      .ok (wordKind ((c :: rest).take n), n)
    else .error (.unexpectedCharacter c)

/-- The value that a token of the given kind and spelling denotes. -/
def literalOf (kind : Token.Kind) (lexeme : List Char) : Except LexFault (Option Value) :=
  match kind with
  | .string => .ok (some (.text (String.ofList (lexeme.drop 1).dropLast)))
  | .number =>
    match Binary64.read? lexeme with
    | some x => .ok (some (.float x))
    | none => .error (.invalidNumber (String.ofList lexeme))
  | _ => .ok none

/-- The token that starts with `c` before `rest`, `position` bytes into a text. -/
def scan (position : Nat) (c : Char) (rest : List Char) : Except LexError (Token × Nat) :=
  match shape c rest with
  | .error fault => .error ⟨fault, position⟩
  | .ok (kind, length) =>
    let lexeme := (c :: rest).take length
    match literalOf kind lexeme with
    | .error fault => .error ⟨fault, position⟩
    | .ok literal? => .ok (⟨kind, String.ofList lexeme, literal?, position⟩, length)

theorem symbol?_length_pos {cs : List Char} {k : Token.Kind} {n : Nat}
    (h : symbol? cs = some (k, n)) :
  0 < n
  := by
  unfold symbol? at h
  split at h <;> simp at h <;> omega

theorem shape_length_pos {c : Char} {rest : List Char} {k : Token.Kind} {n : Nat}
    (h : shape c rest = .ok (k, n)) :
  0 < n
  := by
  unfold shape at h
  split at h
  · next s hs =>
    cases h
    exact symbol?_length_pos hs
  · split at h
    · split at h
      · next m hm =>
        cases h
        simp only [stringLength?] at hm
        split at hm <;> simp at hm
        omega
      · cases h
    · split at h
      · cases h
        simp only [numberLength]
        omega
      · split at h
        · cases h
          omega
        · cases h

theorem scan_length_pos {position : Nat} {c : Char} {rest : List Char} {t : Token} {n : Nat}
    (h : scan position c rest = .ok (t, n)) :
  0 < n
  := by
  unfold scan at h
  split at h
  · cases h
  · next k m hs =>
    simp only at h
    split at h
    · cases h
    · cases h
      exact shape_length_pos hs

/-! ### Runs -/

/-- A text being read: the characters ahead, the bytes before them, and whether the last
token or an error has been met. -/
structure Lexer where
  rest : List Char
  position : Nat
  finished : Bool

namespace Lexer

/-- The lexer at the start of a text. -/
def ofString (s : String) : Lexer :=
  ⟨s.toList, 0, false⟩

/-- The next token or the error in its place, and the lexer after it.  Nothing comes after
the end of the text or after an error. -/
def next? (l : Lexer) : Option (Except LexError Token × Lexer) :=
  if l.finished then none
  else
    let start := l.position + (l.rest.takeWhile isGap).length
    match l.rest.dropWhile isGap with
    | [] => some (.ok (.endAt start), ⟨[], start, true⟩)
    | c :: rest =>
      match scan start c rest with
      | .error e => some (.error e, ⟨c :: rest, start, true⟩)
      | .ok (t, length) => some (.ok t, ⟨(c :: rest).drop length, t.stop, false⟩)

/-- A number that every step of the lexer lowers. -/
def stepsLeft (l : Lexer) : Nat :=
  if l.finished then 0 else l.rest.length + 1

theorem stepsLeft_next {l m : Lexer} {item : Except LexError Token}
    (h : l.next? = some (item, m)) :
  m.stepsLeft < l.stepsLeft
  := by
  unfold next? at h
  split at h
  · cases h
  · next hf =>
    have hle : (l.rest.dropWhile isGap).length ≤ l.rest.length :=
      (List.dropWhile_sublist _).length_le
    simp only at h
    split at h
    · cases h
      simp [stepsLeft, hf]
    · next c rest hr =>
      rw [hr] at hle
      split at h
      · cases h
        simp [stepsLeft, hf]
      · next t n hs =>
        cases h
        have := scan_length_pos hs
        simp only [stepsLeft, hf, List.length_drop, List.length_cons] at hle ⊢
        simp
        omega

/-- The tokens ahead, up to the end of the text or the first error, which comes last. -/
def items (l : Lexer) : List (Except LexError Token) :=
  match _h : l.next? with
  | none => []
  | some (item, m) => item :: m.items
termination_by l.stepsLeft
decreasing_by exact stepsLeft_next _h

end Lexer

/-- The tokens of a text, the last of which marks its end. -/
def tokenize (s : String) : Except LexError (List Token) :=
  (Lexer.ofString s).items.mapM id

end TableQuery.Filter
