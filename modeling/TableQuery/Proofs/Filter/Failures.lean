import TableQuery.Proofs.Filter.Coherence
import TableQuery.Proofs.Filter.Trees

/-!
# Where an evaluation fails

`Expr.applications` lists the operators of a tree with their operands, in the order in which they
are applied.  An operator fails where its operands have values that it does not accept, and the
evaluation of a tree fails with the error of the first operator that does (`Expr.errorOf?_value`),
whatever connectives stand around it (`Expr.holds_fails_first`).  No operator fails for want of a
number: those that compare numbers are applied to numbers only (`Operator.error_of_apply`).
-/

namespace TableQuery.Filter

/-- The error with which an evaluation ends. -/
def errorOf? {α : Type} : Except EvalError α → Option EvalError
  | .ok _ => none
  | .error err => some err

section

variable {α β : Type} {result : Except EvalError α} {err : EvalError}

theorem errorOf?_eq_some_iff :
  errorOf? result = some err ↔ result = .error err
  := by
  cases result <;> simp [errorOf?]

theorem errorOf?_map (f : α → β) (result : Except EvalError α) :
  errorOf? (result.map f) = errorOf? result
  := by
  cases result <;> rfl

theorem map_eq_error_iff {f : α → β} :
  result.map f = .error err ↔ result = .error err
  := by
  rw [← errorOf?_eq_some_iff, errorOf?_map, errorOf?_eq_some_iff]

theorem errorOf?_bind_map (f : α → β → β) (result : Except EvalError α)
    (rest : Except EvalError β) :
  errorOf? (result.bind fun a => rest.map (f a)) = (errorOf? result).or (errorOf? rest)
  := by
  cases result with
  | error err => rfl
  | ok a => apply errorOf?_map

end

/-! ### Applications -/

/-- An operator and its operands, in their place in a tree. -/
structure Application where
  left : Expr
  op : Operator
  position : Nat
  right : Expr

/-- The operands have values, on which the operator fails. -/
def Application.FailsWith (a : Application) (row : Row) (err : EvalError) : Prop :=
  ∃ v w, a.left.value row = .ok v ∧ a.right.value row = .ok w ∧ a.op.apply v w = .error err

/-- The error of an operator whose operands have values. -/
def Application.failure? (a : Application) (row : Row) : Option EvalError :=
  match a.left.value row, a.right.value row with
  | .ok v, .ok w => errorOf? (a.op.apply v w)
  | _, _ => none

theorem Application.failure?_eq_some_iff {a : Application} {row : Row} {err : EvalError} :
  a.failure? row = some err ↔ a.FailsWith row err
  := by
  rw [failure?, FailsWith]
  cases a.left.value row with
  | error => simp
  | ok v =>
    cases a.right.value row with
    | error => simp
    | ok w => simp [errorOf?_eq_some_iff]

namespace Expr

mutual

/-- The operators of a tree with their operands: those in the left operand of an operator, then
those in the right one, then the operator. -/
def applications : Expr → List Application
  | binary left op position right =>
    left.applications ++ right.applications ++ [⟨left, op, position, right⟩]
  | logical _ operands => applicationsOfAll operands
  | group inner => inner.applications
  | literal _ | column _ _ => []

/-- The operators of some trees, from left to right. -/
def applicationsOfAll : List Expr → List Application
  | [] => []
  | e :: rest => e.applications ++ applicationsOfAll rest

end

/-- The evaluation of a tree fails as the first of its operators that fails. -/
theorem errorOf?_value (e : Expr) (row : Row) :
  errorOf? (e.value row) = e.applications.findSome? (·.failure? row)
  := by
  induction e with
  | binary left op position right ihl ihr =>
    rw [applications, List.findSome?_append, List.findSome?_append, ← ihl, ← ihr, value]
    simp only [List.findSome?_cons, List.findSome?_nil, Application.failure?]
    cases left.value row with
    | error err => rfl
    | ok v =>
      cases right.value row with
      | error err => rfl
      | ok w =>
        simp only [errorOf?_map]
        cases op.apply v w <;> rfl
  | logical op operands ih =>
    rw [applications, value_logical, errorOf?_map]
    induction operands with
    | nil => rfl
    | cons e rest ihrest =>
      rw [conditions_cons, errorOf?_bind_map, applicationsOfAll, List.findSome?_append, holds,
        errorOf?_map, ih e List.mem_cons_self, ihrest fun d hd => ih d (List.mem_cons_of_mem e hd)]
  | group inner ih => rw [applications, value, ih]
  | literal v => rw [applications, value]; rfl
  | column name position => rw [applications, value]; rfl

end Expr

/-! ### Errors of operators -/

section Errors

variable {v w : Value} {err : EvalError}

theorem error_of_isEqual (h : isEqual v w = .error err) :
  err = .incomparable v.type? w.type?
  := by
  rcases v.ordered_or_unordered w with ⟨o, hordered⟩ | hunordered
  · rw [isEqual_of_ordered hordered] at h
    cases h
  · rw [isEqual_of_unordered hunordered] at h
    split at h
    · cases h
    · exact (Except.error.inj h).symm

theorem error_of_onFolds {op : Operator} {test : List Char → List Char → Bool}
    (h : onFolds op test v w = .error err) :
  err = .notTexts op v.type? w.type?
  := by
  cases v with
  | null => cases h
  | text s =>
    cases w with
    | text t => cases h
    | _ => exact (Except.error.inj h).symm
  | _ => exact (Except.error.inj h).symm

/-- An operator fails because its operands have no order or are no texts, and names their types.
Those that compare numbers do so for numbers only, so none of them fails for want of one. -/
theorem Operator.error_of_apply {op : Operator} (h : op.apply v w = .error err) :
  err = .incomparable v.type? w.type? ∨ err = .notTexts op v.type? w.type?
  := by
  have hcompare {f : Ordering → Bool} (h : (compareValues v w).map f = .error err) :
      err = .incomparable v.type? w.type? := by
    apply (compareValues_eq_error_iff.mp (map_eq_error_iff.mp h)).2
  cases op with
  | eq => exact .inl (error_of_isEqual h)
  | ne => exact .inl (error_of_isEqual (map_eq_error_iff.mp h))
  | lt | le | gt | ge => exact .inl (hcompare h)
  | contains | startsWith | endsWith =>
    rw [apply] at h
    exact .inr (error_of_onFolds h)

end Errors

namespace Expr

/-- A row fails a tree exactly if some operator of the tree, under whatever connectives, fails on
the values of its operands there.  The error is that of the first such operator from left to right,
operands first, and it is never that a value is no number. -/
theorem holds_fails_first (e : Expr) (row : Row) :
  ((∃ err, e.holds row = .error err) ↔ ∃ a ∈ e.applications, ∃ err, a.FailsWith row err) ∧
  (∀ err, e.holds row = .error err ↔
    ∃ before a after, e.applications = before ++ a :: after ∧ a.FailsWith row err ∧
      ∀ b ∈ before, ∀ err', ¬ b.FailsWith row err') ∧
  ∀ numberError, e.holds row ≠ .error (.number numberError)
  := by
  have hfirst (err : EvalError) : e.holds row = .error err ↔
      e.applications.findSome? (·.failure? row) = some err := by
    rw [← errorOf?_value, holds, map_eq_error_iff, errorOf?_eq_some_iff]
  refine ⟨?somewhere, fun err => ?first, fun numberError h => ?number⟩
  case somewhere =>
    simp only [hfirst, ← Option.isSome_iff_exists, List.findSome?_isSome_iff,
      ← Application.failure?_eq_some_iff]
  case first =>
    simp only [hfirst, List.findSome?_eq_some_iff, Application.failure?_eq_some_iff,
      Option.eq_none_iff_forall_ne_some, ne_eq]
  case number =>
    obtain ⟨a, -, hfails⟩ := List.exists_of_findSome?_eq_some ((hfirst _).mp h)
    obtain ⟨v, w, -, -, happly⟩ := Application.failure?_eq_some_iff.mp hfails
    rcases Operator.error_of_apply happly with herr | herr <;> cases herr

/-- The first of two comparisons that fail stands behind an operand that decides the OR. -/
theorem holds_fails_first_of_or :
  ∃ e : Expr, e = .logical .or [.literal (.bool true),
      .group (.binary (.literal (.text "a")) .lt 2 (.literal (.int 1))),
      .binary (.literal (.int 1)) .contains 9 (.literal (.text "a"))] ∧
    (∃ a ∈ e.applications, ∃ err, a.FailsWith .empty err) ∧
    e.holds .empty = .error (.incomparable (some .string) (some .integer))
  := by
  refine ⟨_, rfl, ?_⟩
  obtain ⟨hsomewhere, hfirst, -⟩ := holds_fails_first (.logical .or [.literal (.bool true),
    .group (.binary (.literal (.text "a")) .lt 2 (.literal (.int 1))),
    .binary (.literal (.int 1)) .contains 9 (.literal (.text "a"))]) .empty
  have hfails := (hfirst (.incomparable (some .string) (some .integer))).mpr
    ⟨[], _, _, rfl, ⟨.text "a", .int 1, rfl, rfl, rfl⟩, by simp⟩
  exact ⟨hsomewhere.mp ⟨_, hfails⟩, hfails⟩

end Expr

end TableQuery.Filter
