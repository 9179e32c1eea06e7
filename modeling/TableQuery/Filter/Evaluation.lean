import TableQuery.Text.CaseFold
import TableQuery.Value.Number
import TableQuery.Table.Dataset
import TableQuery.Filter.Expr

/-!
# Evaluating expressions

`Expr.value` is the value of an expression on a row and `Expr.holds` says whether the row
satisfies it.  Numbers compare by value and texts by their folds; a missing value equals
only a missing value and comes before every other.  Every operand of AND and OR is
evaluated, so an error anywhere is an error of the whole, the leftmost one first.
-/

namespace TableQuery.Filter

/-- Why an expression has no value on a row.  The types are those of the operands. -/
inductive EvalError where
  | incomparable (left right : Option ColumnType)
  | notTexts (op : Operator) (left right : Option ColumnType)
  | number (e : NumberError)
  deriving DecidableEq

/-- The message of an evaluation error. -/
def EvalError.message : EvalError → String
  | incomparable left right =>
    "Cannot compare " ++ ColumnType.nameOf left ++ " with " ++ ColumnType.nameOf right
  | notTexts op left right =>
    "Operator '" ++ op.symbol ++ "' requires String operands, found " ++
      ColumnType.nameOf left ++ " and " ++ ColumnType.nameOf right
  | number e => e.message

/-- Whether a value counts as true: a missing one does not, a boolean does if it is true, and
any other value does. -/
def isTruthy : Value → Bool
  | .null => false
  | .bool b => b
  | _ => true

/-- The numeric order of two values, as a step of an evaluation. -/
def compareAsNumbers (v w : Value) : Except EvalError Ordering :=
  (v.compareNumbers w).mapError .number

/-- Whether two values are equal.  A text and a number are not comparable, not even as
unequal. -/
def isEqual (v w : Value) : Except EvalError Bool :=
  match v, w with
  | .null, .null => .ok true
  | .null, _ | _, .null => .ok false
  | .text s, .text t => .ok (Text.sameFold s t)
  | .bool b, .bool c => .ok (b == c)
  | .bool _, _ | _, .bool _ => .ok false
  | .text _, _ | _, .text _ => .error (.incomparable v.type? w.type?)
  | _, _ => (compareAsNumbers v w).map (·.isEq)

/-- The order of two values: missing ones first, then only numbers with numbers and texts
with texts. -/
def compareValues (v w : Value) : Except EvalError Ordering :=
  match v, w with
  | .null, .null => .ok .eq
  | .null, _ => .ok .lt
  | _, .null => .ok .gt
  | .text s, .text t => .ok (Text.compareFolds s t)
  | _, _ =>
    if v.isNumeric && w.isNumeric then compareAsNumbers v w
    else .error (.incomparable v.type? w.type?)

/-- Whether `needle` occurs in `cs` as a run of consecutive characters. -/
def hasRun (needle : List Char) : List Char → Bool
  | [] => needle.isEmpty
  | c :: cs => needle.isPrefixOf (c :: cs) || hasRun needle cs

/-- Whether `test` holds of the folds of two texts.  It holds of no missing left operand. -/
def onFolds (op : Operator) (test : List Char → List Char → Bool) (v w : Value) :
    Except EvalError Bool :=
  match v, w with
  | .null, _ => .ok false
  | .text s, .text t => .ok (test (Text.fold s) (Text.fold t))
  | _, _ => .error (.notTexts op v.type? w.type?)

/-- Whether two values stand in the relation of an operator. -/
def Operator.apply (op : Operator) (v w : Value) : Except EvalError Bool :=
  match op with
  | eq => isEqual v w
  | ne => (isEqual v w).map (!·)
  | lt => (compareValues v w).map (·.isLT)
  | le => (compareValues v w).map (·.isLE)
  | gt => (compareValues v w).map (·.isGT)
  | ge => (compareValues v w).map (·.isGE)
  | contains => onFolds contains (fun s t => hasRun t s) v w
  | startsWith => onFolds startsWith (fun s t => t.isPrefixOf s) v w
  | endsWith => onFolds endsWith (fun s t => t.isSuffixOf s) v w

/-- The outcome of a run of conditions. -/
def Connective.apply : Connective → List Bool → Bool
  | and, bs => bs.all id
  | or, bs => bs.any id

namespace Expr

mutual

/-- The value of an expression on a row. -/
def value (row : Row) : Expr → Except EvalError Value
  | literal v => .ok v
  | column name _ => .ok (row.cell name)
  | group inner => value row inner
  | binary left op _ right =>
    match value row left with
    | .error e => .error e
    | .ok v =>
      match value row right with
      | .error e => .error e
      | .ok w => (op.apply v w).map .bool
  | logical op operands => (conditions row operands).map fun bs => .bool (op.apply bs)

/-- Whether each of the operands of a connective counts as true. -/
def conditions (row : Row) : List Expr → Except EvalError (List Bool)
  | [] => .ok []
  | e :: rest =>
    match value row e with
    | .error e => .error e
    | .ok v => (conditions row rest).map (isTruthy v :: ·)

end

/-- Whether a row satisfies an expression. -/
def holds (e : Expr) (row : Row) : Except EvalError Bool :=
  (e.value row).map isTruthy

end Expr

end TableQuery.Filter
