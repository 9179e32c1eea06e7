import Mathlib.Data.List.Basic
import TableQuery.Filter.Selection
import TableQuery.Proofs.Filter.Grammar
import TableQuery.Proofs.Filter.Runs

/-!
# Trees up to positions

`Expr.unplaced` forgets the positions of a tree, which matter to neither its value nor its
depth.  `Expr.isNormal` is the shape of the trees that derivations have: chains of comparisons
lean to the left, and runs of connectives are flat and have at least two operands.
`Expr.isCanonical` asks moreover that the leaves of the tree can be written, so that they are
read back.
-/

namespace TableQuery.Filter

namespace Expr

/-- Induction on trees, with the hypothesis for all operands of a connective. -/
@[elab_as_elim, induction_eliminator]
theorem induction {motive : Expr → Prop}
    (binary : ∀ left op position right, motive left → motive right →
      motive (.binary left op position right))
    (logical : ∀ op operands, (∀ e ∈ operands, motive e) → motive (.logical op operands))
    (group : ∀ inner, motive inner → motive (.group inner))
    (literal : ∀ v, motive (.literal v))
    (column : ∀ name position, motive (.column name position)) (e : Expr) :
  motive e
  := by
  match e with
  | .binary left op position right =>
    apply binary left op position right
      (induction binary logical group literal column left)
      (induction binary logical group literal column right)
  | .logical op operands =>
    apply logical op operands fun e _ => induction binary logical group literal column e
  | .group inner => apply group inner (induction binary logical group literal column inner)
  | .literal v => apply literal v
  | .column name position => apply column name position

/-! ### Positions -/

mutual

/-- The tree with all positions zero. -/
def unplaced : Expr → Expr
  | binary left op _ right => binary left.unplaced op 0 right.unplaced
  | logical op operands => logical op (unplacedAll operands)
  | group inner => group inner.unplaced
  | literal v => literal v
  | column name _ => column name 0

/-- The trees with all positions zero. -/
def unplacedAll : List Expr → List Expr
  | [] => []
  | e :: rest => e.unplaced :: unplacedAll rest

end

theorem unplacedAll_eq_map (es : List Expr) :
  unplacedAll es = es.map unplaced
  := by
  induction es with
  | nil => rfl
  | cons e rest ih => rw [unplacedAll, ih, List.map_cons]

@[simp]
theorem unplaced_binary (left right : Expr) (op : Operator) (position : Nat) :
  (binary left op position right).unplaced = binary left.unplaced op 0 right.unplaced
  := by rw [unplaced]

@[simp]
theorem unplaced_logical (op : Connective) (es : List Expr) :
  (logical op es).unplaced = logical op (es.map unplaced)
  := by rw [unplaced, unplacedAll_eq_map]

@[simp]
theorem unplaced_group (inner : Expr) :
  (group inner).unplaced = group inner.unplaced
  := by rw [unplaced]

@[simp]
theorem unplaced_literal (v : Value) :
  (literal v).unplaced = literal v
  := by rw [unplaced]

@[simp]
theorem unplaced_column (name : String) (position : Nat) :
  (column name position).unplaced = column name 0
  := by rw [unplaced]

theorem unplaced_join (op : Connective) (es : List Expr) :
  (join op es).unplaced = join op (es.map unplaced)
  := by
  match es with
  | [e] => rfl
  | [] | _ :: _ :: _ => apply unplaced_logical op _

theorem links_unplaced (e : Expr) :
  e.unplaced.links = e.links
  := by
  induction e with
  | binary left op position right ihl ihr => simp only [unplaced_binary, links, ihl]
  | logical => simp [links]
  | group => simp [links]
  | literal => simp [links]
  | column => simp [links]

/-- The depth of a tree does not depend on its positions. -/
theorem nesting_unplaced (e : Expr) :
  e.unplaced.nesting = e.nesting
  := by
  induction e with
  | binary left op position right ihl ihr =>
    simp only [unplaced_binary, nesting, ihl, ihr, links_unplaced]
  | logical op operands ih =>
    rw [unplaced_logical, nesting, nesting]
    induction operands with
    | nil => rfl
    | cons e rest ihrest =>
      simp only [List.map_cons, nestings]
      rw [ih e List.mem_cons_self, ihrest fun d hd => ih d (List.mem_cons_of_mem e hd)]
  | group inner ih => simp only [unplaced_group, nesting, ih]
  | literal => simp
  | column => simp [nesting]

/-- The value of a tree does not depend on its positions. -/
theorem value_unplaced (row : Row) (e : Expr) :
  e.unplaced.value row = e.value row
  := by
  induction e with
  | binary left op position right ihl ihr => simp only [unplaced_binary, value, ihl, ihr]
  | logical op operands ih =>
    have hoperands : List.Forall₂ (fun e f => e.holds row = f.holds row)
        (operands.map unplaced) operands := by
      rw [List.forall₂_map_left_iff, List.forall₂_same]
      exact fun e he => holds_congr_value (ih e he)
    rw [unplaced_logical, value_logical, value_logical, conditions_eq_of_holds hoperands]
  | group inner ih => simp only [unplaced_group, value, ih]
  | literal => simp
  | column => simp [value]

/-- Trees that differ in their positions only hold of the same rows. -/
theorem holds_congr {d e : Expr} (h : d.unplaced = e.unplaced) (row : Row) :
  d.holds row = e.holds row
  := by
  rw [holds, holds, ← value_unplaced, h, value_unplaced]

/-! ### Shapes -/

/-- Whether a tree is an operand of comparisons: a group, a literal or a column. -/
def isOperand : Expr → Bool
  | group _ | literal _ | column _ _ => true
  | binary _ _ _ _ | logical _ _ => false

/-- Whether a tree is a chain of comparisons, of one operand or more. -/
def isChain : Expr → Bool
  | binary _ _ _ _ => true
  | e => e.isOperand

/-- Whether a tree can stand in a run of a connective: in one of AND, a chain of comparisons,
and in one of OR, anything but a run of OR. -/
def isPartOf : Connective → Expr → Bool
  | .and, e => e.isChain
  | .or, logical .or _ => false
  | .or, _ => true

mutual

/-- Whether a tree has the shape of one that is read. -/
def isNormal : Expr → Bool
  | binary left _ _ right =>
    left.isChain && right.isOperand && left.isNormal && right.isNormal
  | logical op operands =>
    2 ≤ operands.length && operands.all (isPartOf op) && areNormal operands
  | group inner => inner.isNormal
  | literal _ | column _ _ => true

/-- Whether trees have the shape of those that are read. -/
def areNormal : List Expr → Bool
  | [] => true
  | e :: rest => e.isNormal && areNormal rest

end

theorem areNormal_eq_all (es : List Expr) :
  areNormal es = es.all isNormal
  := by
  induction es with
  | nil => rfl
  | cons e rest ih => rw [areNormal, ih, List.all_cons]

theorem isNormal_binary_iff {left right : Expr} {op : Operator} {position : Nat} :
  (binary left op position right).isNormal = true
    ↔ left.isChain = true ∧ right.isOperand = true ∧ left.isNormal = true ∧
      right.isNormal = true
  := by
  simp [isNormal, and_assoc]

theorem isNormal_logical_iff {op : Connective} {es : List Expr} :
  (logical op es).isNormal = true
    ↔ 2 ≤ es.length ∧ ∀ e ∈ es, e.isPartOf op = true ∧ e.isNormal = true
  := by
  simp [isNormal, areNormal_eq_all, and_assoc, forall_and]

/-- A run of one operand or more has the shape of a tree that is read if its operands do. -/
theorem isNormal_join {op : Connective} {es : List Expr} (hne : es ≠ [])
    (h : ∀ e ∈ es, e.isPartOf op = true ∧ e.isNormal = true) :
  (join op es).isNormal = true
  := by
  match es with
  | [e] => apply (h e List.mem_cons_self).2
  | d :: e :: rest =>
    refine isNormal_logical_iff.mpr ⟨?_, h⟩
    simp

mutual

/-- The literals and columns of a tree, from left to right. -/
def leaves : Expr → List Expr
  | binary left _ _ right => left.leaves ++ right.leaves
  | logical _ operands => leavesOfAll operands
  | group inner => inner.leaves
  | literal v => [literal v]
  | column name position => [column name position]

/-- The literals and columns of some trees, from left to right. -/
def leavesOfAll : List Expr → List Expr
  | [] => []
  | e :: rest => e.leaves ++ leavesOfAll rest

end

theorem leavesOfAll_eq_flatMap (es : List Expr) :
  leavesOfAll es = es.flatMap leaves
  := by
  induction es with
  | nil => rfl
  | cons e rest ih => rw [leavesOfAll, ih, List.flatMap_cons]

theorem forall_mem_leaves_binary {P : Expr → Prop} {left right : Expr} {op : Operator}
    {position : Nat} :
  (∀ leaf ∈ (binary left op position right).leaves, P leaf)
    ↔ (∀ leaf ∈ left.leaves, P leaf) ∧ ∀ leaf ∈ right.leaves, P leaf
  := by
  rw [leaves, List.forall_mem_append]

theorem forall_mem_leaves_logical {P : Expr → Prop} {op : Connective} {es : List Expr} :
  (∀ leaf ∈ (logical op es).leaves, P leaf) ↔ ∀ e ∈ es, ∀ leaf ∈ e.leaves, P leaf
  := by
  rw [leaves, leavesOfAll_eq_flatMap]
  apply List.forall_mem_flatMap

theorem forall_mem_leaves_join {P : Expr → Prop} {op : Connective} {es : List Expr} :
  (∀ leaf ∈ (join op es).leaves, P leaf) ↔ ∀ e ∈ es, ∀ leaf ∈ e.leaves, P leaf
  := by
  match es with
  | [e] => simp [join]
  | [] | _ :: _ :: _ => apply forall_mem_leaves_logical

theorem leaves_unplaced (e : Expr) :
  e.unplaced.leaves = e.leaves.map unplaced
  := by
  induction e with
  | binary left op position right ihl ihr =>
    simp only [unplaced_binary, leaves, ihl, ihr, List.map_append]
  | logical op operands ih =>
    rw [unplaced_logical, leaves, leaves, leavesOfAll_eq_flatMap, leavesOfAll_eq_flatMap,
      List.flatMap_map, List.map_flatMap]
    apply List.flatMap_congr ih
  | group inner ih => simp only [unplaced_group, leaves, ih]
  | literal => simp [leaves]
  | column => simp [leaves]

end Expr

end TableQuery.Filter
