import TableQuery.Policy.Basic
import TableQuery.Filter.Expr

/-!
# Reading expressions

    expression := conjunction (OR conjunction)*
    conjunction := comparison (AND comparison)*
    comparison := operand (operator operand)*
    operand := number | string | true | false | null | name | "(" expression ")"

A `State` is what has been read of an expression: the groups that are still open, innermost
first, and whether an operand is due.  `Rules.advance?` moves a state over one token, and
`Rules.stop` ends it at a token that it cannot move over.  Names must be column names, and
open groups and the comparisons chained in each count against a limit of depth.
-/

namespace TableQuery.Filter

/-- Why tokens are no filter.  Every fault but the first is found at a token. -/
inductive ParseError where
  | empty
  | unknownColumn (name : Token) (available : List String)
  | expectedExpression (found : Token)
  | unclosedGroup (found : Token)
  | trailingInput (found : Token)
  | tooDeep (found : Token) (limit : Nat)
  deriving DecidableEq

namespace ParseError

/-- The token at which the fault was found. -/
def token? : ParseError → Option Token
  | empty => none
  | unknownColumn t _ | expectedExpression t | unclosedGroup t | trailingInput t
  | tooDeep t _ => some t

/-- The number of bytes before the fault. -/
def position? (e : ParseError) : Option Nat :=
  e.token?.map (·.position)

/-- The message of a parse error. -/
def message : ParseError → String
  | empty => "Filter expression is empty"
  | unknownColumn t available =>
    "Unknown column '" ++ t.lexeme ++ "' at position " ++ toString t.position ++
      ". Available columns: [" ++ ", ".intercalate available ++ "]"
  | expectedExpression t =>
    "Expected expression at position " ++ toString t.position ++ ", but found " ++ t.describe
  | unclosedGroup t =>
    "Expected ')' after expression at position " ++ toString t.position ++ ", but found " ++
      t.describe
  | trailingInput t =>
    "Unexpected " ++ t.describe ++ " at position " ++ toString t.position ++
      " after a complete expression"
  | tooDeep t limit =>
    "Filter nests deeper than " ++ toString limit ++ " levels at position " ++
      toString t.position

end ParseError

/-! ### States -/

/-- A comparison that waits for its right operand. -/
structure Pending where
  left : Expr
  op : Operator
  position : Nat

/-- The operand `e`, as the right side of a comparison that waits for one. -/
def attachTo (pending? : Option Pending) (e : Expr) : Expr :=
  match pending? with
  | none => e
  | some p => .binary p.left p.op p.position e

/-- What has been read of an open group: the operands of OR and of the current AND, last
first, and the comparison under way.  `base` is the depth of the group, and `links` the
number of operators in the current chain of comparisons. -/
structure Frame where
  disjuncts : List Expr
  conjuncts : List Expr
  pending? : Option Pending
  base : Nat
  links : Nat

namespace Frame

/-- The start of a group at depth `base`. -/
def start (base : Nat) : Frame :=
  ⟨[], [], none, base, 0⟩

/-- The depth at the current place in the group. -/
def depth (f : Frame) : Nat :=
  f.base + f.links

/-- The operand `e` as the right side of the comparison under way, if there is one. -/
def attach (f : Frame) (e : Expr) : Expr :=
  attachTo f.pending? e

/-- The conjunction that ends with the comparison `e`. -/
def conjunction (f : Frame) (e : Expr) : Expr :=
  .join .and (f.conjuncts.reverse ++ [e])

/-- The expression that ends with the comparison `e`. -/
def expression (f : Frame) (e : Expr) : Expr :=
  .join .or (f.disjuncts.reverse ++ [f.conjunction e])

/-- The group after an operator that follows the comparison `e`. -/
def afterOperator (f : Frame) (e : Expr) (op : Operator) (position : Nat) : Frame :=
  { f with pending? := some ⟨e, op, position⟩, links := f.links + 1 }

/-- The group after an AND that follows the comparison `e`. -/
def afterAnd (f : Frame) (e : Expr) : Frame :=
  { f with conjuncts := e :: f.conjuncts, pending? := none, links := 0 }

/-- The group after an OR that follows the comparison `e`. -/
def afterOr (f : Frame) (e : Expr) : Frame :=
  { f with
    disjuncts := f.conjunction e :: f.disjuncts, conjuncts := [], pending? := none, links := 0 }

end Frame

/-- What has been read of an expression: the innermost open group, the groups around it, and
the comparison just read, unless an operand is due. -/
inductive State where
  | due (frame : Frame) (outer : List Frame)
  | read (comparison : Expr) (frame : Frame) (outer : List Frame)

/-- The state before the first token. -/
def State.start : State :=
  .due (.start 0) []

/-- What an expression is read against: the column names, and the limit of depth. -/
structure Rules where
  columns : List String
  limit : Nat

namespace Rules

/-- The state after an opening parenthesis where an operand is due. -/
def openGroup (r : Rules) (t : Token) (f : Frame) (outer : List Frame) :
    Except ParseError State :=
  if r.limit ≤ f.depth then .error (.tooDeep t r.limit)
  else .ok (.due (.start (f.depth + 1)) (f :: outer))

/-- The operand that a name stands for. -/
def column (r : Rules) (t : Token) : Except ParseError Expr :=
  if r.columns.contains t.lexeme then .ok (.column t.lexeme t.position)
  else .error (.unknownColumn t r.columns)

/-- The operand that a single token stands for. -/
def operand? (r : Rules) (t : Token) : Option (Except ParseError Expr) :=
  match t.kind with
  | .trueWord => some (.ok (.literal (.bool true)))
  | .falseWord => some (.ok (.literal (.bool false)))
  | .nullWord => some (.ok (.literal .null))
  | .number | .string => some (.ok (.literal (t.literal?.getD .null)))
  | .identifier => some (r.column t)
  | _ => none

/-- The state after a token, unless the state cannot move over it. -/
def advance? (r : Rules) (s : State) (t : Token) : Except ParseError (Option State) :=
  match s with
  | .due f outer =>
    if t.kind = .leftParen then (r.openGroup t f outer).map some
    else
      match r.operand? t with
      | some operand => operand.map fun e => some (.read (f.attach e) f outer)
      | none => .ok none
  | .read e f outer =>
    match t.kind.operator? with
    | some op =>
      if r.limit ≤ f.depth then .error (.tooDeep t r.limit)
      else .ok (some (.due (f.afterOperator e op t.position) outer))
    | none =>
      match t.kind, outer with
      | .and, _ => .ok (some (.due (f.afterAnd e) outer))
      | .or, _ => .ok (some (.due (f.afterOr e) outer))
      | .rightParen, g :: outer =>
        .ok (some (.read (g.attach (.group (f.expression e))) g outer))
      | _, _ => .ok none

/-- The expression that is complete before the token `t`, over which the state cannot
move. -/
def stop (s : State) (t : Token) : Except ParseError Expr :=
  match s with
  | .due _ _ => .error (.expectedExpression t)
  | .read _ _ (_ :: _) => .error (.unclosedGroup t)
  | .read e f [] => .ok (f.expression e)

/-- The expression at the start of the tokens and the token right after it, which is
`last` when there is none. -/
def run (r : Rules) (last : Token) (s : State) : List Token → Except ParseError (Expr × Token)
  | [] => (stop s last).map (·, last)
  | t :: rest =>
    match r.advance? s t with
    | .error e => .error e
    | .ok (some s) => run r last s rest
    | .ok none => (stop s t).map (·, t)

end Rules

/-- The end of a list of tokens.  Positions are 64-bit words. -/
def endOf (tokens : List Token) : Token :=
  .endAt (match tokens.getLast? with | some t => t.stop % UInt64.size | none => 0)

/-- The filter that tokens spell, over the given columns.  What follows a complete
expression is an error unless the policy allows it. -/
def parse (tokens : List Token) (columns : List String) (p : Policy) : Except ParseError Expr :=
  if (tokens.head?.getD (endOf tokens)).isEnd then .error .empty
  else do
    let (e, next) ← Rules.run ⟨columns, p.maxDepth.toNat⟩ (endOf tokens) .start tokens
    if next.isEnd || p.allowsTrailing then .ok e else .error (.trailingInput next)

end TableQuery.Filter
