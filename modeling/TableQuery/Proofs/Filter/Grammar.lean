import TableQuery.Filter.Parser

/-!
# The grammar of filters

    expression := conjunction (OR conjunction)*
    conjunction := comparison (AND comparison)*
    comparison := operand (operator operand)*
    operand := number | string | true | false | null | name | "(" expression ")"

`Expression ts e` says that the tokens `ts` derive from `expression` and that `e` is the tree
of the derivation.  A repetition is built from its left end, one connective or operator at a
time, so comparisons associate to the left; the operands of a run of connectives are listed,
and a run of one operand stands for that operand.

`Expr.nesting` is the depth of a tree as limits count it: the inside of a group lies one level
below the group, and the operators of a chain of comparisons lie one, two, … levels below its
first operand, each with its right operand.
-/

namespace TableQuery.Filter

/-! ### Derivations -/

/-- The operands of a single token, and their trees. -/
inductive Leaf : Token → Expr → Prop where
  | number {t : Token} (ht : t.kind = .number) : Leaf t (.literal (t.literal?.getD .null))
  | string {t : Token} (ht : t.kind = .string) : Leaf t (.literal (t.literal?.getD .null))
  | trueWord {t : Token} (ht : t.kind = .trueWord) : Leaf t (.literal (.bool true))
  | falseWord {t : Token} (ht : t.kind = .falseWord) : Leaf t (.literal (.bool false))
  | nullWord {t : Token} (ht : t.kind = .nullWord) : Leaf t (.literal .null)
  | name {t : Token} (ht : t.kind = .identifier) : Leaf t (.column t.lexeme t.position)

mutual

/-- The tokens of one or more conjunctions with an OR between each two, and their trees. -/
inductive Disjunction : List Token → List Expr → Prop where
  | conjunction {ts : List Token} {es : List Expr} (h : Conjunction ts es) :
    Disjunction ts [.join .and es]
  | or {ts us : List Token} {t : Token} {es fs : List Expr} (h : Disjunction ts es)
    (ht : t.kind = .or) (hu : Conjunction us fs) :
    Disjunction (ts ++ t :: us) (es ++ [.join .and fs])

/-- The tokens of one or more comparisons with an AND between each two, and their trees. -/
inductive Conjunction : List Token → List Expr → Prop where
  | comparison {ts : List Token} {e : Expr} (h : Comparison ts e) :
    Conjunction ts [e]
  | and {ts us : List Token} {t : Token} {es : List Expr} {e : Expr} (h : Conjunction ts es)
    (ht : t.kind = .and) (hu : Comparison us e) :
    Conjunction (ts ++ t :: us) (es ++ [e])

/-- The tokens of a chain of comparisons, and its tree. -/
inductive Comparison : List Token → Expr → Prop where
  | operand {ts : List Token} {e : Expr} (h : Operand ts e) :
    Comparison ts e
  | operator {ts us : List Token} {t : Token} {op : Operator} {e f : Expr}
    (h : Comparison ts e) (ht : t.kind.operator? = some op) (hu : Operand us f) :
    Comparison (ts ++ t :: us) (.binary e op t.position f)

/-- The tokens of an operand, and its tree. -/
inductive Operand : List Token → Expr → Prop where
  | leaf {t : Token} {e : Expr} (h : Leaf t e) :
    Operand [t] e
  | group {l r : Token} {ts : List Token} {es : List Expr} (hl : l.kind = .leftParen)
    (h : Disjunction ts es) (hr : r.kind = .rightParen) :
    Operand (l :: ts ++ [r]) (.group (.join .or es))

end

/-- The tokens `ts` derive from `expression`, and `e` is the tree of the derivation. -/
def Expression (ts : List Token) (e : Expr) : Prop :=
  ∃ es, Disjunction ts es ∧ e = .join .or es

/-- Every name among the tokens is one of the columns. -/
def NamesIn (columns : List String) (ts : List Token) : Prop :=
  ∀ t ∈ ts, t.kind = .identifier → t.lexeme ∈ columns

theorem namesIn_append {columns : List String} {ts us : List Token} :
  NamesIn columns (ts ++ us) ↔ NamesIn columns ts ∧ NamesIn columns us
  := List.forall_mem_append

theorem namesIn_cons {columns : List String} {t : Token} {ts : List Token} :
  NamesIn columns (t :: ts)
    ↔ (t.kind = .identifier → t.lexeme ∈ columns) ∧ NamesIn columns ts
  := List.forall_mem_cons

theorem namesIn_nil {columns : List String} :
  NamesIn columns []
  := fun _ h => nomatch h

theorem namesIn_singleton {columns : List String} {t : Token}
    (h : t.kind = .identifier → t.lexeme ∈ columns) :
  NamesIn columns [t]
  := namesIn_cons.mpr ⟨h, namesIn_nil⟩

/-! ### Nesting -/

namespace Expr

/-- The number of operators of the chain of comparisons at the top of a tree. -/
def links : Expr → Nat
  | binary left _ _ _ => left.links + 1
  | _ => 0

mutual

/-- The depth of a tree: how many groups and chained operators lie around its innermost
part. -/
def nesting : Expr → Nat
  | binary left _ _ right => max left.nesting (left.links + 1 + right.nesting)
  | logical _ operands => nestings operands
  | group inner => inner.nesting + 1
  | literal _ => 0
  | column _ _ => 0

/-- The greatest depth of some trees. -/
def nestings : List Expr → Nat
  | [] => 0
  | e :: rest => max e.nesting (nestings rest)

end

theorem nestings_le {es : List Expr} {n : Nat} :
  nestings es ≤ n ↔ ∀ e ∈ es, e.nesting ≤ n
  := by
  induction es with
  | nil => simp [nestings]
  | cons e rest ih => rw [nestings, Nat.max_le, ih, List.forall_mem_cons]

theorem nesting_join_le {op : Connective} {es : List Expr} {n : Nat} :
  (join op es).nesting ≤ n ↔ ∀ e ∈ es, e.nesting ≤ n
  := by
  rw [← nestings_le]
  unfold join
  split
  · simp [nestings]
  · rw [nesting]

theorem nesting_le_join (op : Connective) {es : List Expr} {e : Expr} (h : e ∈ es) :
  e.nesting ≤ (join op es).nesting
  := nesting_join_le.mp (Nat.le_refl _) e h

end Expr

/-! ### Operands -/

theorem Leaf.nesting_eq {t : Token} {e : Expr} (h : Leaf t e) :
  e.nesting = 0
  := by
  cases h <;> rfl

theorem Leaf.links_eq {t : Token} {e : Expr} (h : Leaf t e) :
  e.links = 0
  := by
  cases h <;> rfl

/-- An operand is no chain of comparisons. -/
theorem Operand.links_eq {ts : List Token} {e : Expr} (h : Operand ts e) :
  e.links = 0
  := by
  cases h with
  | leaf h => apply h.links_eq
  | group => rfl

end TableQuery.Filter
