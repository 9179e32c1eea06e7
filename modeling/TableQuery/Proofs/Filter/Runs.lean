import Mathlib.Data.List.Perm.Basic
import Mathlib.Data.List.Forall2
import TableQuery.Filter.Evaluation

/-!
# Runs of a connective

All operands of a connective are evaluated, from left to right, and the first error is that of the
run (`Expr.conditions_append`, `Expr.conditions_eq_ok_iff`).  So a run of the same connective among
the operands, in parentheses or not, means what its operands mean in its place
(`Expr.value_logical_nested`).  Operands in another order have the same conditions in this order, if
none of them fails (`Expr.exists_conditions_of_perm`).  Hence trees may be flattened, and operands
exchanged up to which error is the first (`Expr.run_flat_and_unordered`).
-/

namespace TableQuery.Filter

/-! ### Outcomes -/

/-- The outcome of a part of a run may stand in the run for its conditions. -/
theorem Connective.apply_nested (op : Connective) (bs cs ds : List Bool) :
  op.apply (bs ++ op.apply cs :: ds) = op.apply (bs ++ cs ++ ds)
  := by
  cases op <;> simp [apply]

theorem Connective.apply_perm (op : Connective) {bs cs : List Bool} (h : bs.Perm cs) :
  op.apply bs = op.apply cs
  := by
  cases op with
  | and => apply h.all_eq
  | or => apply h.any_eq

namespace Expr

variable {row : Row} {op : Connective} {run : Expr} {es fs xs ys zs : List Expr} {bs cs : List Bool}

/-! ### Conditions -/

/-- The conditions of a run are what its operands come to, one after the other. -/
theorem conditions_cons (row : Row) (e : Expr) (es : List Expr) :
  conditions row (e :: es)
    = (e.holds row).bind fun b => (conditions row es).map (b :: ·)
  := by
  rw [conditions, holds]
  cases e.value row <;> rfl

/-- Operands that come to the same one by one have the same conditions. -/
theorem conditions_eq_of_holds {row' : Row}
    (h : List.Forall₂ (fun e f => e.holds row = f.holds row') es fs) :
  conditions row es = conditions row' fs
  := by
  induction h with
  | nil => rfl
  | cons he _ ih => rw [conditions_cons, conditions_cons, he, ih]

/-- The conditions of two runs in a row. -/
theorem conditions_append (row : Row) (es fs : List Expr) :
  conditions row (es ++ fs)
    = (conditions row es).bind fun bs => (conditions row fs).map (bs ++ ·)
  := by
  induction es with
  | nil =>
    rw [List.nil_append, conditions]
    cases conditions row fs <;> rfl
  | cons e es ih =>
    rw [List.cons_append, conditions_cons, conditions_cons, ih]
    cases e.holds row with
    | error err => rfl
    | ok b =>
      cases conditions row es with
      | error err => rfl
      | ok bs => cases conditions row fs <;> rfl

/-- A run has conditions exactly if each of its operands comes to the condition in its place. -/
theorem conditions_eq_ok_iff :
  conditions row es = .ok bs ↔ List.Forall₂ (fun e b => e.holds row = .ok b) es bs
  := by
  induction es generalizing bs with
  | nil => simp [conditions, eq_comm]
  | cons e es ih =>
    simp only [conditions_cons, List.forall₂_cons_left_iff, ← ih]
    cases e.holds row with
    | error err => simp [Except.bind]
    | ok b => cases conditions row es <;> simp [Except.bind, Except.map, eq_comm]

theorem value_logical (op : Connective) (es : List Expr) (row : Row) :
  (logical op es).value row = (conditions row es).map fun bs => .bool (op.apply bs)
  := by rw [value]

/-- What a run comes to. -/
theorem holds_logical (op : Connective) (es : List Expr) (row : Row) :
  (logical op es).holds row = (conditions row es).map op.apply
  := by
  rw [holds, value_logical]
  cases conditions row es <;> rfl

theorem holds_congr_value {d e : Expr} (h : d.value row = e.value row) :
  d.holds row = e.holds row
  := by rw [holds, holds, h]

/-! ### Nested runs -/

/-- An operand that is evaluated as a run of the connective may be replaced by the operands of the
run. -/
theorem value_logical_nested (h : run.value row = (logical op ys).value row) :
  (logical op (xs ++ run :: zs)).value row = (logical op (xs ++ ys ++ zs)).value row
  := by
  simp only [value_logical, conditions_append, conditions_cons, holds_congr_value h, holds_logical]
  cases conditions row xs with
  | error err => rfl
  | ok bs =>
    cases conditions row ys with
    | error err => rfl
    | ok cs =>
      cases conditions row zs with
      | error err => rfl
      | ok ds => simp [Except.bind, Except.map, op.apply_nested]

/-- The same holds of an operand that is evaluated as the run would be if it were read: a single
operand stands for itself. -/
theorem value_logical_joined (h : run.value row = (join op ys).value row) :
  (logical op (xs ++ run :: zs)).value row = (logical op (xs ++ ys ++ zs)).value row
  := by
  match ys with
  | [e] =>
    have hrun : run.holds row = e.holds row := holds_congr_value h
    simp only [value_logical, List.append_assoc, conditions_append, conditions_cons, hrun,
      List.cons_append, List.nil_append]
  | [] | _ :: _ :: _ => apply value_logical_nested h

/-! ### Operands in another order -/

/-- Operands in another order have conditions if they have any, and these in the other order. -/
theorem exists_conditions_of_perm (h : es.Perm fs) (hfs : conditions row fs = .ok cs) :
  ∃ bs, conditions row es = .ok bs ∧ bs.Perm cs
  := by
  obtain ⟨bs, hes, hperm⟩ := List.perm_comp_forall₂ h (conditions_eq_ok_iff.mp hfs)
  exact ⟨bs, conditions_eq_ok_iff.mpr hes, hperm⟩

/-- A run comes to the same in any order of its operands. -/
theorem holds_logical_of_perm (h : es.Perm fs) {b : Bool}
    (hfs : (logical op fs).holds row = .ok b) :
  (logical op es).holds row = .ok b
  := by
  rw [holds_logical] at hfs ⊢
  cases hconditions : conditions row fs with
  | error err =>
    rw [hconditions] at hfs
    cases hfs
  | ok cs =>
    obtain ⟨bs, hes, hperm⟩ := exists_conditions_of_perm h hconditions
    rw [hes, ← hfs, hconditions]
    exact congrArg Except.ok (op.apply_perm hperm)

theorem exists_error_iff {ε α : Type} {result : Except ε α} :
  (∃ err, result = .error err) ↔ ∀ a, result ≠ .ok a
  := by
  cases result <;> simp

/-- A run of a connective among the operands of the same connective is evaluated as its operands in
its place are, errors included, whether it is in parentheses or not, and also where it was read and
so stands for itself if it is single.  Operands in any order fail on the same rows, and come to the
same on the others. -/
theorem run_flat_and_unordered (op : Connective) (row : Row) :
  (∀ xs ys zs run,
    run ∈ [logical op ys, group (logical op ys), join op ys, group (join op ys)] →
    (logical op (xs ++ run :: zs)).value row = (logical op (xs ++ ys ++ zs)).value row ∧
      (logical op (xs ++ run :: zs)).holds row = (logical op (xs ++ ys ++ zs)).holds row) ∧
  ∀ es fs, es.Perm fs →
    (∀ b, (logical op es).holds row = .ok b ↔ (logical op fs).holds row = .ok b) ∧
      ((∃ err, (logical op es).holds row = .error err)
        ↔ ∃ err, (logical op fs).holds row = .error err)
  := by
  constructor
  · intro xs ys zs run hrun
    have hvalue : (logical op (xs ++ run :: zs)).value row
        = (logical op (xs ++ ys ++ zs)).value row := by
      simp only [List.mem_cons, List.not_mem_nil, or_false] at hrun
      rcases hrun with rfl | rfl | rfl | rfl
      · apply value_logical_nested rfl
      · apply value_logical_nested (value.eq_def row _)
      · apply value_logical_joined rfl
      · apply value_logical_joined (value.eq_def row _)
    exact ⟨hvalue, holds_congr_value hvalue⟩
  · intro es fs h
    have hok (b : Bool) :
        (logical op es).holds row = .ok b ↔ (logical op fs).holds row = .ok b :=
      ⟨holds_logical_of_perm h.symm, holds_logical_of_perm h⟩
    refine ⟨hok, ?_⟩
    simp only [exists_error_iff, ne_eq, hok]

/-- Two comparisons that fail, each with an error of its own, behind an operand that holds. -/
theorem run_flat_and_unordered_of_errors :
  ∃ first second : Expr, first = .binary (.literal (.int 1)) .contains 0 (.literal (.text "a")) ∧
    second = .binary (.literal (.text "a")) .lt 0 (.literal (.int 1)) ∧
    (logical .or [literal (.bool true), group (logical .or [first, second])]).holds .empty
      = (logical .or [literal (.bool true), first, second]).holds .empty ∧
    (logical .or [literal (.bool true), first, second]).holds .empty
      = .error (.notTexts .contains (some .integer) (some .string)) ∧
    ∃ err, (logical .or [second, first, literal (.bool true)]).holds .empty = .error err
  := by
  refine ⟨_, _, rfl, rfl, ?_⟩
  obtain ⟨hnested, hperm⟩ := run_flat_and_unordered .or .empty
  have hfails : (logical .or [literal (.bool true),
      .binary (.literal (.int 1)) .contains 0 (.literal (.text "a")),
      .binary (.literal (.text "a")) .lt 0 (.literal (.int 1))]).holds .empty
        = .error (.notTexts .contains (some .integer) (some .string)) := by
    rfl
  refine ⟨(hnested [_] [_, _] [] _ (by simp)).2, hfails, ?_⟩
  exact (hperm _ _ (List.reverse_perm _)).2.mpr ⟨_, hfails⟩

end Expr

end TableQuery.Filter
