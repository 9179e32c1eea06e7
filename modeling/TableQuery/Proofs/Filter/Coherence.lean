import Mathlib.Order.Compare
import TableQuery.Proofs.Filter.Comparisons

/-!
# The comparisons of all values

Two values are in order or they are not (`ordered_or_unordered`).  `Value.Ordered` lists the values
that are, with their order: a missing value and any other, two texts, two numbers.
`Value.Unordered` lists the rest: a boolean and another value that is not missing, a text and a
number.  Both are symmetric.  Order and equality are decided apart from each other, but both follow
these lists: values in order are equal exactly if their order says so, and of the others only
booleans have an equality.  Hence the six operators fit together (`comparisons_coherent`).
-/

namespace TableQuery

/-! ### Texts -/

/-- Texts are alike but for case exactly if neither comes before the other. -/
theorem Text.sameFold_eq (s t : String) :
  sameFold s t = (compareFolds s t).isEq
  := by
  rw [Bool.eq_iff_iff, sameFold, compareFolds, decide_eq_true_iff, Ordering.isEq_iff_eq_eq]
  exact Std.compare_eq_iff_eq.symm

theorem Text.compareFolds_swap (s t : String) :
  (compareFolds s t).swap = compareFolds t s
  := Std.OrientedOrd.eq_swap.symm

theorem Text.compareFolds_self (s : String) :
  compareFolds s s = .eq
  := Std.compare_eq_iff_eq.mpr rfl

/-! ### Pairs of values -/

namespace Value

variable {v w : Value} {o : Ordering}

/-- Whether the value is a boolean. -/
def isBool : Value → Bool
  | bool _ => true
  | _ => false

/-- The values that stand in an order, and the order. -/
inductive Ordered : Value → Value → Ordering → Prop where
  | missing : Ordered null null .eq
  | before {w : Value} (hw : w ≠ null) : Ordered null w .lt
  | after {v : Value} (hv : v ≠ null) : Ordered v null .gt
  | texts (s t : String) : Ordered (text s) (text t) (Text.compareFolds s t)
  | numbers {v w : Value} (hv : v.isNumeric = true) (hw : w.isNumeric = true) :
    Ordered v w (v.order w)

/-- The values that stand in no order. -/
inductive Unordered : Value → Value → Prop where
  | bool (b : Bool) {w : Value} (hw : w ≠ null) : Unordered (bool b) w
  | boolRight {v : Value} (hv : v ≠ null) (b : Bool) : Unordered v (Value.bool b)
  | textNumber (s : String) {w : Value} (hw : w.isNumeric = true) : Unordered (text s) w
  | numberText {v : Value} (hv : v.isNumeric = true) (s : String) : Unordered v (text s)

theorem ordered_or_unordered (v w : Value) :
  (∃ o, Ordered v w o) ∨ Unordered v w
  := by
  by_cases hv : v = null
  · rw [hv]
    by_cases hw : w = null
    · rw [hw]
      exact .inl ⟨_, .missing⟩
    · exact .inl ⟨_, .before hw⟩
  by_cases hw : w = null
  · rw [hw]
    exact .inl ⟨_, .after hv⟩
  cases v with
  | null => exact absurd rfl hv
  | bool b => exact .inr (.bool b hw)
  | text s =>
    cases w with
    | null => exact absurd rfl hw
    | bool b => exact .inr (.boolRight hv b)
    | text t => exact .inl ⟨_, .texts s t⟩
    | int | float => exact .inr (.textNumber s rfl)
  | int | float =>
    cases w with
    | null => exact absurd rfl hw
    | bool b => exact .inr (.boolRight hv b)
    | text t => exact .inr (.numberText rfl t)
    | int | float => exact .inl ⟨_, .numbers rfl rfl⟩

/-- The order is the reverse one for the reverse pair. -/
theorem Ordered.swap (h : Ordered v w o) :
  Ordered w v o.swap
  := by
  cases h with
  | missing => exact .missing
  | before hw => exact .after hw
  | after hv => exact .before hv
  | texts s t =>
    rw [Text.compareFolds_swap]
    exact .texts t s
  | numbers hv hw =>
    rw [order_swap]
    exact .numbers hw hv

theorem Unordered.symm (h : Unordered v w) :
  Unordered w v
  := by
  cases h with
  | bool b hw => exact .boolRight hw b
  | boolRight hv b => exact .bool b hv
  | textNumber s hw => exact .numberText hw s
  | numberText hv s => exact .textNumber s hv

end Value

/-! ### Equality and order -/

namespace Filter

variable {v w : Value} {o : Ordering}

theorem compareValues_of_ordered (h : v.Ordered w o) :
  compareValues v w = .ok o
  := by
  cases h with
  | missing => rfl
  | before hw =>
    cases w with
    | null => exact absurd rfl hw
    | _ => rfl
  | after hv =>
    cases v with
    | null => exact absurd rfl hv
    | _ => rfl
  | texts => rfl
  | numbers hv hw => apply compareValues_eq hv hw

/-- Values in order are equal if their order says so. -/
theorem isEqual_of_ordered (h : v.Ordered w o) :
  isEqual v w = .ok o.isEq
  := by
  cases h with
  | missing => rfl
  | before hw =>
    cases w with
    | null => exact absurd rfl hw
    | _ => rfl
  | after hv =>
    cases v with
    | null => exact absurd rfl hv
    | _ => rfl
  | texts s t =>
    rw [isEqual, Text.sameFold_eq]
  | numbers hv hw => apply isEqual_eq hv hw

theorem compareValues_of_unordered (h : v.Unordered w) :
  compareValues v w = .error (.incomparable v.type? w.type?)
  := by
  cases h with
  | bool b hw =>
    cases w with
    | null => exact absurd rfl hw
    | _ => rfl
  | boolRight hv b =>
    cases v with
    | null => exact absurd rfl hv
    | _ => rfl
  | textNumber s hw =>
    rcases Value.int_or_float_of_isNumeric hw with ⟨i, rfl⟩ | ⟨x, rfl⟩ <;> rfl
  | numberText hv s =>
    rcases Value.int_or_float_of_isNumeric hv with ⟨i, rfl⟩ | ⟨x, rfl⟩ <;> rfl

/-- Of the values in no order only booleans can be asked whether they are equal, and they equal
nothing but themselves. -/
theorem isEqual_of_unordered (h : v.Unordered w) :
  isEqual v w
    = if v.isBool || w.isBool then .ok (v = w) else .error (.incomparable v.type? w.type?)
  := by
  cases h with
  | bool b hw =>
    cases w with
    | null => exact absurd rfl hw
    | bool c => cases b <;> cases c <;> rfl
    | _ => simp [isEqual, Value.isBool]
  | boolRight hv b =>
    cases v with
    | null => exact absurd rfl hv
    | bool c => cases b <;> cases c <;> rfl
    | _ => simp [isEqual, Value.isBool]
  | textNumber s hw =>
    rcases Value.int_or_float_of_isNumeric hw with ⟨i, rfl⟩ | ⟨x, rfl⟩ <;> rfl
  | numberText hv s =>
    rcases Value.int_or_float_of_isNumeric hv with ⟨i, rfl⟩ | ⟨x, rfl⟩ <;> rfl

theorem compareValues_eq_ok_iff :
  compareValues v w = .ok o ↔ v.Ordered w o
  := by
  constructor
  · intro h
    rcases v.ordered_or_unordered w with ⟨o', hordered⟩ | hunordered
    · rw [compareValues_of_ordered hordered] at h
      exact Except.ok.inj h ▸ hordered
    · rw [compareValues_of_unordered hunordered] at h
      cases h
  · apply compareValues_of_ordered

theorem compareValues_eq_error_iff {err : EvalError} :
  compareValues v w = .error err ↔ v.Unordered w ∧ err = .incomparable v.type? w.type?
  := by
  constructor
  · intro h
    rcases v.ordered_or_unordered w with ⟨o, hordered⟩ | hunordered
    · rw [compareValues_of_ordered hordered] at h
      cases h
    · rw [compareValues_of_unordered hunordered] at h
      exact ⟨hunordered, (Except.error.inj h).symm⟩
  · rintro ⟨hunordered, rfl⟩
    apply compareValues_of_unordered hunordered

/-! ### Operators -/

/-- The error with its operands exchanged. -/
def EvalError.swap : EvalError → EvalError
  | incomparable left right => incomparable right left
  | notTexts op left right => notTexts op right left
  | number e => number e

/-- Exchanging two values reverses their order, or the types in their error. -/
theorem compareValues_swap (v w : Value) :
  compareValues w v = ((compareValues v w).map (·.swap)).mapError (·.swap)
  := by
  rcases v.ordered_or_unordered w with ⟨o, hordered⟩ | hunordered
  · rw [compareValues_of_ordered hordered, compareValues_of_ordered hordered.swap]
    rfl
  · rw [compareValues_of_unordered hunordered, compareValues_of_unordered hunordered.symm]
    rfl

/-- Equality is symmetric, and exchanging the values exchanges the types in an error. -/
theorem isEqual_swap (v w : Value) :
  isEqual w v = (isEqual v w).mapError (·.swap)
  := by
  rcases v.ordered_or_unordered w with ⟨o, hordered⟩ | hunordered
  · rw [isEqual_of_ordered hordered, isEqual_of_ordered hordered.swap, Ordering.isEq_swap]
    rfl
  · rw [isEqual_of_unordered hunordered, isEqual_of_unordered hunordered.symm, Bool.or_comm]
    split
    · exact congrArg Except.ok (decide_eq_decide.mpr eq_comm)
    · rfl

theorem isEqual_self (v : Value) :
  isEqual v v = .ok true
  := by
  cases v with
  | null => rfl
  | bool b => cases b <;> rfl
  | int | float =>
    rw [isEqual_eq rfl rfl, Value.order_self]
    rfl
  | text s =>
    rw [isEqual, Text.sameFold_eq, Text.compareFolds_self]
    rfl

/-- The operator that says that values are in the order `o`. -/
def Operator.ofOrdering : Ordering → Operator
  | .lt => lt
  | .eq => eq
  | .gt => gt

/-- Of the operators for an order, that of their own order holds of two values. -/
theorem apply_of_ordered (h : v.Ordered w o) {op : Operator}
    (hop : op ∈ [Operator.lt, .eq, .gt]) :
  op.apply v w = .ok (op = .ofOrdering o)
  := by
  simp only [List.mem_cons, List.not_mem_nil, or_false] at hop
  rcases hop with rfl | rfl | rfl
  · rw [Operator.apply, compareValues_of_ordered h]
    cases o <;> rfl
  · rw [Operator.apply, isEqual_of_ordered h]
    cases o <;> rfl
  · rw [Operator.apply, compareValues_of_ordered h]
    cases o <;> rfl

theorem existsUnique_apply (h : v.Ordered w o) :
  ∃! op, op ∈ [Operator.lt, .eq, .gt] ∧ op.apply v w = .ok true
  := by
  have hmem : Operator.ofOrdering o ∈ [Operator.lt, .eq, .gt] := by
    cases o <;> decide
  refine ⟨.ofOrdering o, ⟨hmem, ?_⟩, ?_⟩
  · rw [apply_of_ordered h hmem, decide_eq_true rfl]
  · rintro op ⟨hop, htrue⟩
    rw [apply_of_ordered h hop] at htrue
    apply of_decide_eq_true (Except.ok.inj htrue)

/-- What one comparison of orders is not, the other is. -/
theorem map_eq_map_not {f g : Ordering → Bool} (h : ∀ o, g o = !f o)
    (x : Except EvalError Ordering) :
  x.map g = (x.map f).map (!·)
  := by
  cases x with
  | error err => rfl
  | ok o => exact congrArg Except.ok (h o)

/-- The comparisons of any two values fit together.  Values in an order are equal if their order
says so, so exactly one of `<`, `==` and `>` holds of them, and `>=`, `!=` and `<=` are what these
are not.  Values in no order have the same error for both, naming their types, but a boolean equals
nothing except itself.  Exchanging the values reverses their order, keeps their equality and
exchanges the types in an error.  Every value equals itself. -/
theorem comparisons_coherent (v w : Value) :
  (∀ o, compareValues v w = .ok o →
    isEqual v w = .ok o.isEq ∧
    ∃! op, op ∈ [Operator.lt, .eq, .gt] ∧ op.apply v w = .ok true) ∧
  (∀ err, compareValues v w = .error err →
    err = .incomparable v.type? w.type? ∧
    isEqual v w = if v.isBool || w.isBool then .ok (v = w) else .error err) ∧
  Operator.ne.apply v w = (Operator.eq.apply v w).map (!·) ∧
  Operator.ge.apply v w = (Operator.lt.apply v w).map (!·) ∧
  Operator.le.apply v w = (Operator.gt.apply v w).map (!·) ∧
  compareValues w v = ((compareValues v w).map (·.swap)).mapError (·.swap) ∧
  isEqual w v = (isEqual v w).mapError (·.swap) ∧
  isEqual v v = .ok true
  := by
  refine ⟨fun o ho => ?ordered, fun err herr => ?unordered, rfl,
    map_eq_map_not (fun _ => Ordering.not_isLT_eq_isGE.symm) _,
    map_eq_map_not (fun _ => Ordering.not_isGT_eq_isLE.symm) _,
    compareValues_swap v w, isEqual_swap v w, isEqual_self v⟩
  case ordered =>
    have hordered := compareValues_eq_ok_iff.mp ho
    exact ⟨isEqual_of_ordered hordered, existsUnique_apply hordered⟩
  case unordered =>
    obtain ⟨hunordered, rfl⟩ := compareValues_eq_error_iff.mp herr
    exact ⟨rfl, isEqual_of_unordered hunordered⟩

/-- The texts `ß` and `SS` fold alike, and a text and a number have no order. -/
theorem comparisons_coherent_of_folds :
  isEqual (.text "ß") (.text "SS") = .ok true ∧
    (∃! op, op ∈ [Operator.lt, .eq, .gt] ∧ op.apply (.text "ß") (.text "SS") = .ok true) ∧
    isEqual (.text "1") (.int 1) = .error (.incomparable (some .string) (some .integer)) ∧
    isEqual (.int 1) (.text "1") = .error (.incomparable (some .integer) (some .string))
  := by
  have hfolds : compareValues (.text "ß") (.text "SS") = .ok .eq := by decide +kernel
  obtain ⟨hequal, hunique⟩ := (comparisons_coherent (.text "ß") (.text "SS")).1 .eq hfolds
  obtain ⟨-, herror, -, -, -, -, hswap, -⟩ := comparisons_coherent (.text "1") (.int 1)
  have herror := (herror _ rfl).2
  rw [herror] at hswap
  exact ⟨hequal, hunique, herror, hswap⟩

end Filter

end TableQuery
