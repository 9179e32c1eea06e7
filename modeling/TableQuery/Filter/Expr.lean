import TableQuery.Filter.Token

/-!
# Expressions

An `Expr` is a filter as a tree.  A run of one connective is a single node, so it adds one
level however long it is.  `Expr.render` is the canonical text of a tree.  It is built from
its end on, and `Expr.render_binary`, `Expr.render_logical_cons` and `Expr.render_group` say
how the text of a tree is put together from those of its parts.
-/

namespace TableQuery.Filter

/-- A filter.  Positions are the byte offsets of an operator or a name in the text. -/
inductive Expr where
  | binary (left : Expr) (op : Operator) (position : Nat) (right : Expr)
  | logical (op : Connective) (operands : List Expr)
  | group (inner : Expr)
  | literal (v : Value)
  | column (name : String) (position : Nat)

namespace Expr

instance : Inhabited Expr := ⟨literal .null⟩

/-- The operands joined by a connective.  A single operand stands for itself. -/
def join (op : Connective) : List Expr → Expr
  | [e] => e
  | operands => logical op operands

/-- The text of a value in a filter. -/
def literalText : Value → List Char
  | .null => "null".toList
  | .text s => '"' :: s.toList ++ ['"']
  | v => v.display.toList

/-- A word with a blank on both sides. -/
def spaced (word : String) : List Char :=
  ' ' :: word.toList ++ [' ']

mutual

/-- The characters of the canonical text with `rest` after them. -/
def renderBefore (rest : List Char) : Expr → List Char
  | binary left op _ right => renderBefore (spaced op.symbol ++ renderBefore rest right) left
  | logical _ [] => rest
  | logical op (e :: more) => renderBefore (renderMoreBefore op rest more) e
  | group inner => '(' :: renderBefore (')' :: rest) inner
  | literal v => literalText v ++ rest
  | column name _ => name.toList ++ rest

/-- The further operands of a run, the connective before each, with `rest` after them. -/
def renderMoreBefore (op : Connective) (rest : List Char) : List Expr → List Char
  | [] => rest
  | e :: more => spaced op.symbol ++ renderBefore (renderMoreBefore op rest more) e

end

/-- The characters of the canonical text. -/
def render (e : Expr) : List Char :=
  renderBefore [] e

/-- The further operands of a run, the connective before each. -/
def renderMore (op : Connective) (more : List Expr) : List Char :=
  renderMoreBefore op [] more

mutual

theorem renderBefore_append (e : Expr) (rest tail : List Char) :
  renderBefore (rest ++ tail) e = renderBefore rest e ++ tail
  := by
  match e with
  | binary left op _ right =>
    simp only [renderBefore, renderBefore_append right rest tail]
    rw [← List.append_assoc, renderBefore_append left _ tail]
  | logical _ [] => simp only [renderBefore]
  | logical op (e :: more) =>
    simp only [renderBefore, renderMoreBefore_append op more rest tail]
    rw [renderBefore_append e _ tail]
  | group inner =>
    simp only [renderBefore, List.cons_append]
    rw [← List.cons_append, renderBefore_append inner _ tail]
  | literal v => simp only [renderBefore, List.append_assoc]
  | column name _ => simp only [renderBefore, List.append_assoc]

theorem renderMoreBefore_append (op : Connective) (more : List Expr) (rest tail : List Char) :
  renderMoreBefore op (rest ++ tail) more = renderMoreBefore op rest more ++ tail
  := by
  match more with
  | [] => simp only [renderMoreBefore]
  | e :: more =>
    simp only [renderMoreBefore, renderMoreBefore_append op more rest tail]
    rw [renderBefore_append e _ tail, List.append_assoc]

end

theorem renderBefore_eq (rest : List Char) (e : Expr) :
  renderBefore rest e = e.render ++ rest
  := renderBefore_append e [] rest

theorem renderMoreBefore_eq (op : Connective) (rest : List Char) (more : List Expr) :
  renderMoreBefore op rest more = renderMore op more ++ rest
  := renderMoreBefore_append op more [] rest

theorem render_binary (left right : Expr) (op : Operator) (position : Nat) :
  (binary left op position right).render = left.render ++ spaced op.symbol ++ right.render
  := by
  simp only [render, renderBefore]
  rw [renderBefore_eq, renderBefore_eq, List.append_nil, List.append_assoc]
  rfl

theorem render_logical_cons (op : Connective) (e : Expr) (more : List Expr) :
  (logical op (e :: more)).render = e.render ++ renderMore op more
  := by
  simp only [render, renderBefore]
  rw [renderBefore_eq]
  rfl

theorem renderMore_cons (op : Connective) (e : Expr) (more : List Expr) :
  renderMore op (e :: more) = spaced op.symbol ++ e.render ++ renderMore op more
  := by
  simp only [renderMore, renderMoreBefore]
  rw [renderBefore_eq, List.append_assoc]

theorem render_group (inner : Expr) :
  (group inner).render = '(' :: inner.render ++ [')']
  := by
  simp only [render, renderBefore]
  rw [renderBefore_eq]
  rfl

theorem render_literal (v : Value) :
  (literal v).render = literalText v
  := by
  simp only [render, renderBefore, List.append_nil]

theorem render_column (name : String) (position : Nat) :
  (column name position).render = name.toList
  := by
  simp only [render, renderBefore, List.append_nil]

/-- The canonical text of a filter. -/
def text (e : Expr) : String :=
  String.ofList e.render

end Expr

end TableQuery.Filter
