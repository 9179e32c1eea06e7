import TableQuery.Value.Basic

/-!
# Tokens of a filter

A `Token` is a word of a filter with its kind, its spelling and the byte at which it starts.
Numbers and strings also carry the value they denote.
-/

namespace TableQuery.Filter

/-- The operators of a comparison. -/
inductive Operator where
  | eq
  | ne
  | lt
  | le
  | gt
  | ge
  | contains
  | startsWith
  | endsWith
  deriving DecidableEq, Repr

/-- The written form of an operator. -/
def Operator.symbol : Operator → String
  | eq => "=="
  | ne => "!="
  | lt => "<"
  | le => "<="
  | gt => ">"
  | ge => ">="
  | contains => "contains"
  | startsWith => "startsWith"
  | endsWith => "endsWith"

/-- The connectives of conditions. -/
inductive Connective where
  | and
  | or
  deriving DecidableEq, Repr

/-- The written form of a connective. -/
def Connective.symbol : Connective → String
  | and => "AND"
  | or => "OR"

namespace Token

/-- The kinds of tokens. -/
inductive Kind where
  | leftParen
  | rightParen
  | equal
  | notEqual
  | less
  | lessEqual
  | greater
  | greaterEqual
  | contains
  | startsWith
  | endsWith
  | and
  | or
  | trueWord
  | falseWord
  | nullWord
  | identifier
  | number
  | string
  | endOfInput
  deriving DecidableEq, Repr

/-- The operator that a kind of token stands for. -/
def Kind.operator? : Kind → Option Operator
  | equal => some .eq
  | notEqual => some .ne
  | less => some .lt
  | lessEqual => some .le
  | greater => some .gt
  | greaterEqual => some .ge
  | contains => some .contains
  | startsWith => some .startsWith
  | endsWith => some .endsWith
  | _ => none

end Token

/-- A word of a filter. -/
structure Token where
  kind : Token.Kind
  lexeme : String
  literal? : Option Value
  /-- The number of bytes before the token. -/
  position : Nat
  deriving DecidableEq

namespace Token

/-- The token that ends a filter. -/
def endAt (position : Nat) : Token :=
  ⟨.endOfInput, "", none, position⟩

/-- Whether the token ends a filter. -/
def isEnd (t : Token) : Bool :=
  t.kind = .endOfInput

/-- How a token is named in a message. -/
def describe (t : Token) : String :=
  if t.isEnd then "end of input" else "'" ++ t.lexeme ++ "'"

/-- The number of bytes up to the end of the token. -/
def stop (t : Token) : Nat :=
  t.position + t.lexeme.utf8ByteSize

@[simp]
theorem isEnd_endAt (position : Nat) :
  (endAt position).isEnd = true
  := rfl

end Token

end TableQuery.Filter
