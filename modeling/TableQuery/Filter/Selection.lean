import TableQuery.Text.Blank
import TableQuery.Filter.Lexer
import TableQuery.Filter.Parser
import TableQuery.Filter.Evaluation

/-!
# Selecting rows

`select` keeps the rows that satisfy a filter text and counts what it saw.  A row on which
the filter has no value is left out and counted apart.  A blank filter keeps every row.
-/

namespace TableQuery.Filter

/-- Why a text is no filter. -/
inductive FilterError where
  | lex (e : LexError)
  | parse (e : ParseError)
  deriving DecidableEq

/-- The message of a filter error. -/
def FilterError.message : FilterError → String
  | lex e => e.message
  | parse e => e.message

/-- The filter that a text spells, over the given columns. -/
def read (s : String) (columns : List String) (p : Policy) : Except FilterError Expr :=
  match tokenize s with
  | .error e => .error (.lex e)
  | .ok tokens => (parse tokens columns p).mapError .parse

/-- How many rows a filter was tried on, how many satisfied it, and on how many it had no
value. -/
structure Stats where
  scanned : Nat
  matched : Nat
  failed : Nat
  deriving DecidableEq, Repr

/-- The rows that satisfy an expression. -/
def Expr.keep (e : Expr) (rows : List Row) : List Row :=
  rows.filter fun row =>
    match e.holds row with
    | .ok b => b
    | .error _ => false

/-- The number of rows on which an expression has no value. -/
def Expr.countFailed (e : Expr) (rows : List Row) : Nat :=
  rows.countP fun row =>
    match e.holds row with
    | .ok _ => false
    | .error _ => true

/-- The rows that satisfy a filter text, in their order, and the counts. -/
def select (rows : List Row) (schema : Schema) (filter : String) (p : Policy) :
    Except FilterError (List Row × Stats) :=
  if Text.isBlank filter then .ok (rows, ⟨rows.length, rows.length, 0⟩)
  else
    (read filter schema.headers p).map fun e =>
      let kept := e.keep rows
      (kept, ⟨rows.length, kept.length, e.countFailed rows⟩)

end TableQuery.Filter
