import TableQuery.Value.Stored
import TableQuery.Filter.Selection

/-!
# Stored filters

The JSON forms of expressions, operators, kinds of tokens and counts.  An expression is an
object with its kind and its fields, or an array of them.  It is read in full before it is
taken apart, so nothing in it may be unreadable.
-/

namespace TableQuery.Filter

/-- The stored names of the operators. -/
def Operator.storedNames : List (String × Operator) :=
  [("eq", eq), ("ne", ne), ("lt", lt), ("le", le), ("gt", gt), ("ge", ge),
   ("contains", contains), ("starts_with", startsWith), ("ends_with", endsWith)]

/-- The stored name of an operator. -/
def Operator.storedName : Operator → String
  | eq => "eq"
  | ne => "ne"
  | lt => "lt"
  | le => "le"
  | gt => "gt"
  | ge => "ge"
  | contains => "contains"
  | startsWith => "starts_with"
  | endsWith => "ends_with"

/-- Reads an operator. -/
def Operator.decode : Json.Decoder Operator :=
  Json.Decoder.constant storedNames

/-- The stored names of the connectives. -/
def Connective.storedNames : List (String × Connective) :=
  [("and", and), ("or", or)]

/-- The stored name of a connective. -/
def Connective.storedName : Connective → String
  | and => "and"
  | or => "or"

/-- Reads a connective. -/
def Connective.decode : Json.Decoder Connective :=
  Json.Decoder.constant storedNames

/-- The stored names of the kinds of tokens. -/
def Token.Kind.storedNames : List (String × Token.Kind) :=
  [("l_paren", leftParen), ("r_paren", rightParen), ("equal_equal", equal),
   ("bang_equal", notEqual), ("less", less), ("less_equal", lessEqual), ("greater", greater),
   ("greater_equal", greaterEqual), ("contains", contains), ("starts_with", startsWith),
   ("ends_with", endsWith), ("and", and), ("or", or), ("true", trueWord),
   ("false", falseWord), ("null", nullWord), ("identifier", identifier), ("number", number),
   ("string", string), ("eof", endOfInput)]

/-- The stored name of a kind of token. -/
def Token.Kind.storedName (k : Token.Kind) : String :=
  ((storedNames.find? fun (_, kind) => kind = k).map Prod.fst).getD ""

/-- Reads a kind of token. -/
def Token.Kind.decode : Json.Decoder Token.Kind :=
  Json.Decoder.constant storedNames

/-- The JSON form of the counts of a selection. -/
def Stats.toJson (s : Stats) : Json :=
  .object [("scanned", .nat s.scanned), ("matched", .nat s.matched), ("failed", .nat s.failed)]

namespace Expr

mutual

/-- The JSON form of an expression. -/
def toJson : Expr → Json
  | binary left op position right =>
    .object
      [("kind", .string "binary"), ("left", toJson left), ("op", .string op.storedName),
       ("position", .nat position), ("right", toJson right)]
  | logical op operands =>
    .object
      [("kind", .string "logical"), ("op", .string op.storedName),
       ("operands", .array (toJsons operands))]
  | group inner => .object [("kind", .string "grouping"), ("inner", toJson inner)]
  | literal v => .object [("kind", .string "literal"), ("value", v.toJson)]
  | column name position =>
    .object [("kind", .string "variable"), ("name", .string name), ("position", .nat position)]

/-- The JSON forms of some expressions. -/
def toJsons : List Expr → List Json
  | [] => []
  | e :: rest => toJson e :: toJsons rest

end

/-- The shapes of an expression. -/
inductive Shape where
  | binary
  | logical
  | group
  | literal
  | column
  deriving DecidableEq, Repr

/-- The stored names of the shapes, in their stored order. -/
def Shape.storedNames : List (String × Shape) :=
  [("binary", binary), ("logical", logical), ("grouping", group), ("literal", literal),
   ("variable", column)]

/-- The names of the fields of a shape, in their stored order. -/
def Shape.fields : Shape → List String
  | binary => ["left", "op", "position", "right"]
  | logical => ["op", "operands"]
  | group => ["inner"]
  | literal => ["value"]
  | column => ["name", "position"]

/-- Reads a shape. -/
def Shape.decode : Json.Decoder Shape :=
  Json.Decoder.label storedNames

/-- The shape and the fields of a stored expression. -/
def parts? (r : Json.Reach) : Json → Option (Shape × List Json)
  | .object members => do
    let shape ← Shape.decode r (← (← Json.field? members "kind"))
    let fields ← shape.fields.mapM fun name => do (← Json.field? members name)
    return (shape, fields)
  | .array (kind :: fields) => do
    let shape ← Shape.decode r kind
    if fields.length = shape.fields.length then return (shape, fields) else none
  | _ => none

/-- Reads a position. -/
def decodePosition (j : Json) : Option Nat :=
  (Json.Decoder.word none j).map UInt64.toNat

/-- Reads an expression that holds at most `levels` expressions inside each other. -/
def decodeWithin (r : Json.Reach) : Nat → Json → Option Expr
  | 0, _ => none
  | levels + 1, j => do
    match ← parts? r j with
    | (.binary, [left, op, position, right]) =>
      return binary (← decodeWithin none levels left) (← Operator.decode none op)
        (← decodePosition position) (← decodeWithin none levels right)
    | (.logical, [op, .array operands]) =>
      return logical (← Connective.decode none op) (← operands.mapM (decodeWithin none levels))
    | (.group, [inner]) => return group (← decodeWithin none levels inner)
    | (.literal, [v]) => return literal (← Value.decode none v)
    | (.column, [name, position]) =>
      return column (← Json.Decoder.text none name) (← decodePosition position)
    | _ => none

/-- Reads an expression. -/
def decode : Json.Decoder Expr := fun r j =>
  let levels := r.getD 0
  if j.isReadable levels then decodeWithin r levels j else none

end Expr

end TableQuery.Filter
