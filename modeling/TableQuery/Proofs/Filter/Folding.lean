import Mathlib.Data.List.Forall2
import TableQuery.Proofs.Filter.Trees

/-!
# Evaluation up to case

A filter sees the folds of texts only, and only the cells of the columns that it names.  Two
values are `Value.Alike` when they are equal or texts of the same fold, and two filters are
`Expr.Alike` when they are equal but for such literals.  Operators do not tell alike values apart
(`Operator.apply_congr`), so alike filters have alike values on rows with alike cells
(`Expr.value_alike`): the same rows satisfy them, and they fail with the same errors
(`Expr.holds_eq_of_alike`).
-/

namespace TableQuery

/-- Two values are equal, or texts that are alike but for case. -/
inductive Value.Alike : Value → Value → Prop where
  | refl (v : Value) : Alike v v
  | text {s t : String} (h : Text.fold s = Text.fold t) : Alike (.text s) (.text t)

namespace Filter

/-! ### Operators -/

section Operators

variable {v v' w w' : Value}

/-- The function sees two texts by their folds only, and of a text beside another value no more
than that it is a text. -/
structure SeesFolds {α : Type} (f : Value → Value → α) : Prop where
  texts : ∀ {s s' t t' : String}, Text.fold s = Text.fold s' → Text.fold t = Text.fold t' →
    f (.text s) (.text t) = f (.text s') (.text t')
  left : ∀ (s s' : String) (w : Value), w.text? = none → f (.text s) w = f (.text s') w
  right : ∀ (t t' : String) (v : Value), v.text? = none → f v (.text t) = f v (.text t')

theorem SeesFolds.congr {α : Type} {f : Value → Value → α} (h : SeesFolds f) (hv : v.Alike v')
    (hw : w.Alike w') :
  f v w = f v' w'
  := by
  cases hv with
  | refl v =>
    cases hw with
    | refl => rfl
    | @text t t' hw =>
      cases v with
      | text s => apply h.texts rfl hw
      | _ => apply h.right t t' _ rfl
  | @text s s' hv =>
    cases hw with
    | refl w =>
      cases w with
      | text t => apply h.texts hv rfl
      | _ => apply h.left s s' _ rfl
    | text hw => apply h.texts hv hw

theorem seesFolds_isEqual :
  SeesFolds isEqual
  where
  texts hs ht := by simp only [isEqual, Text.sameFold, hs, ht]
  left _ _ w hw := by
    cases w with
    | text => cases hw
    | _ => rfl
  right _ _ v hv := by
    cases v with
    | text => cases hv
    | _ => rfl

theorem seesFolds_compareValues :
  SeesFolds compareValues
  where
  texts hs ht := by simp only [compareValues, Text.compareFolds, hs, ht]
  left _ _ w hw := by
    cases w with
    | text => cases hw
    | _ => rfl
  right _ _ v hv := by
    cases v with
    | text => cases hv
    | _ => rfl

theorem seesFolds_onFolds (op : Operator) (test : List Char → List Char → Bool) :
  SeesFolds (onFolds op test)
  where
  texts hs ht := by simp only [onFolds, hs, ht]
  left _ _ w hw := by
    cases w with
    | text => cases hw
    | _ => rfl
  right _ _ v hv := by
    cases v with
    | text => cases hv
    | _ => rfl

/-- An operator holds of the same operands up to case, and fails on them with the same error. -/
theorem Operator.apply_congr (op : Operator) (hv : v.Alike v') (hw : w.Alike w') :
  op.apply v w = op.apply v' w'
  := by
  have hequal := seesFolds_isEqual.congr hv hw
  have hcompare := seesFolds_compareValues.congr hv hw
  have hfolds := fun op test => (seesFolds_onFolds op test).congr hv hw
  cases op <;> simp only [apply, hequal, hcompare, hfolds]

theorem isTruthy_congr (h : v.Alike v') :
  isTruthy v = isTruthy v'
  := by
  cases h with
  | refl => rfl
  | text => rfl

end Operators

/-! ### Trees -/

/-- Two trees are equal but for literals that are alike. -/
inductive Expr.Alike : Expr → Expr → Prop where
  | binary {left left' right right' : Expr} (op : Operator) (position : Nat)
    (hleft : Alike left left') (hright : Alike right right') :
    Alike (.binary left op position right) (.binary left' op position right')
  | logical {es es' : List Expr} (op : Connective) (hes : List.Forall₂ Alike es es') :
    Alike (.logical op es) (.logical op es')
  | group {inner inner' : Expr} (hinner : Alike inner inner') :
    Alike (.group inner) (.group inner')
  | literal {v v' : Value} (hv : v.Alike v') : Alike (.literal v) (.literal v')
  | column (name : String) (position : Nat) : Alike (.column name position) (.column name position)

/-- The cells of two rows are alike in every column that the tree names. -/
def Expr.CellsAlike (e : Expr) (row row' : Row) : Prop :=
  ∀ name position, .column name position ∈ e.leaves → (row.cell name).Alike (row'.cell name)

/-- Two evaluations end with alike values, or with the same error. -/
inductive EndAlike : Except EvalError Value → Except EvalError Value → Prop where
  | ok {v v' : Value} (h : v.Alike v') : EndAlike (.ok v) (.ok v')
  | error (e : EvalError) : EndAlike (.error e) (.error e)

theorem EndAlike.refl (result : Except EvalError Value) :
  EndAlike result result
  := by
  cases result with
  | ok v => exact .ok (.refl v)
  | error e => exact .error e

namespace Expr

variable {row row' : Row}

theorem cellsAlike_binary {left right : Expr} {op : Operator} {position : Nat} :
  (binary left op position right).CellsAlike row row'
    ↔ left.CellsAlike row row' ∧ right.CellsAlike row row'
  := by
  simp only [CellsAlike, leaves, List.mem_append, or_imp, forall_and]

theorem cellsAlike_logical {op : Connective} {es : List Expr} :
  (logical op es).CellsAlike row row' ↔ ∀ e ∈ es, e.CellsAlike row row'
  := by
  simp only [CellsAlike, leaves, leavesOfAll_eq_flatMap, List.mem_flatMap]
  constructor
  · exact fun h e he name position hleaf => h name position ⟨e, he, hleaf⟩
  · rintro h name position ⟨e, he, hleaf⟩
    apply h e he name position hleaf

/-- The conditions of a run of operands are the same if the operands end alike. -/
theorem conditions_congr {es es' : List Expr}
    (h : List.Forall₂ (fun e e' => EndAlike (e.value row) (e'.value row')) es es') :
  conditions row es = conditions row' es'
  := by
  apply conditions_eq_of_holds
  apply h.imp
  intro e e' he
  rw [holds, holds]
  generalize e.value row = result, e'.value row' = result' at he
  cases he with
  | ok hv => rw [Except.map, Except.map, isTruthy_congr hv]
  | error err => rfl

/-- Alike trees have alike values on rows whose cells are alike in the columns that are named, or
fail with the same error. -/
theorem value_alike {e e' : Expr} (h : e.Alike e') (hcells : e.CellsAlike row row') :
  EndAlike (e.value row) (e'.value row')
  := by
  induction e generalizing e' with
  | binary left op position right ihl ihr =>
    obtain ⟨hleftCells, hrightCells⟩ := cellsAlike_binary.mp hcells
    obtain @⟨_, left', _, right', _, _, hleft, hright⟩ := h
    have hl := ihl hleft hleftCells
    have hr := ihr hright hrightCells
    rw [value, value]
    generalize left.value row = result, left'.value row' = result' at hl
    generalize right.value row = result₂, right'.value row' = result₂' at hr
    cases hl with
    | error err => exact .error err
    | ok hv =>
      cases hr with
      | error err => exact .error err
      | ok hw =>
        simp only [op.apply_congr hv hw]
        apply EndAlike.refl
  | logical op operands ih =>
    obtain _ | @⟨_, es', _, hes⟩ := h
    have hmem : List.Forall₂ (fun e e' => e ∈ operands ∧ e.Alike e') operands es' :=
      (List.forall₂_and_left _ _).mpr ⟨fun _ he => he, hes⟩
    have hoperands : List.Forall₂ (fun e e' => EndAlike (e.value row) (e'.value row'))
        operands es' := by
      apply hmem.imp
      rintro e e' ⟨he, halike⟩
      apply ih e he halike (cellsAlike_logical.mp hcells e he)
    rw [value, value, conditions_congr hoperands]
    apply EndAlike.refl
  | group inner ih =>
    obtain _ | _ | hinner := h
    rw [value, value]
    apply ih hinner
    simpa only [CellsAlike, leaves] using hcells
  | literal v =>
    obtain _ | _ | _ | hv := h
    rw [value, value]
    exact .ok hv
  | column name position =>
    obtain _ | _ | _ | _ | _ := h
    rw [value, value]
    apply EndAlike.ok
    apply hcells name position
    simp [leaves]

theorem Alike.rfl {e : Expr} :
  e.Alike e
  := by
  induction e with
  | binary left op position right ihl ihr => exact .binary op position ihl ihr
  | logical op operands ih => exact .logical op (List.forall₂_same.mpr ih)
  | group inner ih => exact .group ih
  | literal v => exact .literal (.refl v)
  | column name position => exact .column name position

/-- Rows whose cells are alike in the columns that a tree names satisfy it both, or neither does,
or it fails on them with the same error; and it is the same with any tree whose literals are
alike. -/
theorem holds_eq_of_alike {e : Expr} (hcells : e.CellsAlike row row') :
  e.holds row = e.holds row' ∧ ∀ e' : Expr, e.Alike e' → e.holds row = e'.holds row'
  := by
  have hall : ∀ e' : Expr, e.Alike e' → e.holds row = e'.holds row' := by
    intro e' h
    have hvalue := value_alike h hcells
    rw [holds, holds]
    generalize e.value row = result, e'.value row' = result' at hvalue
    cases hvalue with
    | ok hv => rw [Except.map, Except.map, isTruthy_congr hv]
    | error err => rfl
  exact ⟨hall e .rfl, hall⟩

/-- A sharp s folds to two letters, so a text in capitals may be one letter longer. -/
theorem holds_eq_of_alike_of_street :
  ∃ e e' : Expr, ∃ row row' : Row,
    e = .binary (.column "street" 0) .endsWith 7 (.literal (.text "SSE")) ∧
    e' = .binary (.column "street" 0) .endsWith 7 (.literal (.text "ße")) ∧
    row = .ofList [("street", .text "Hauptstraße"), ("zip", .int 8001)] ∧
    row' = .ofList [("street", .text "HAUPTSTRASSE")] ∧
    e.CellsAlike row row' ∧ e.Alike e' ∧
    e.holds row = e.holds row' ∧ e.holds row = e'.holds row' ∧ e.holds row = .ok true
  := by
  refine ⟨_, _, _, _, rfl, rfl, rfl, rfl, ?_⟩
  have hcells : CellsAlike (.binary (.column "street" 0) .endsWith 7 (.literal (.text "SSE")))
      (.ofList [("street", .text "Hauptstraße"), ("zip", .int 8001)])
      (.ofList [("street", .text "HAUPTSTRASSE")]) := by
    intro name position hleaf
    obtain ⟨rfl, -⟩ : name = "street" ∧ position = 0 := by simpa [leaves] using hleaf
    exact .text (by decide +kernel)
  have halike : Alike (.binary (.column "street" 0) .endsWith 7 (.literal (.text "SSE")))
      (.binary (.column "street" 0) .endsWith 7 (.literal (.text "ße"))) := by
    apply Alike.binary _ _ (.column _ _)
    apply Alike.literal (.text (by decide +kernel))
  obtain ⟨hrows, hall⟩ := holds_eq_of_alike hcells
  exact ⟨hcells, halike, hrows, hall _ halike, by decide +kernel⟩

end Expr

end Filter

end TableQuery
