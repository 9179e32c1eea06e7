import TableQuery.Proofs.Filter.Failures
import TableQuery.Proofs.Filter.Integers
import TableQuery.Proofs.Filter.RoundTrip

/-!
# Numbers that are compared

No text is read as a NaN, be it a cell (`Value.isNaN_of_read?`) or a numeral of a filter
(`Lexer.isRead_of_mem_items`).  An expression has no NaN as its value on a row unless one of its
literals or a cell of the row is one (`Expr.isNaN_of_value`).  So the doubles that the operators of a
filter compare on the rows of a loaded table are numbers, and their order is the numeric one
(`numbers_are_compared`).
-/

namespace TableQuery

/-! ### Values that are read -/

namespace Value

variable {v : Value} {x : Binary64}

/-- Whether a value is a double that is not a number. -/
def isNaN : Value → Bool
  | float x => x.isNaN
  | _ => false

/-- No text is read as a NaN. -/
theorem isNaN_of_read? {t : ColumnType} {s : String} (h : read? t s = some v) :
  v.isNaN = false
  := by
  cases t with
  | string =>
    obtain rfl := Option.some.inj h
    rfl
  | integer | boolean =>
    obtain ⟨a, -, rfl⟩ := Option.map_eq_some_iff.mp h
    rfl
  | float =>
    obtain ⟨x, hx, rfl⟩ := Option.map_eq_some_iff.mp h
    obtain ⟨d, -, rfl⟩ := Option.map_eq_some_iff.mp hx
    apply Binary64.isNaN_ofDecimal

/-- The double nearest to a value is a number unless the value is a NaN. -/
theorem isNaN_of_number (hv : v.isNaN = false) (h : v.number = .ok x) :
  x.isNaN = false
  := by
  cases v with
  | int i =>
    obtain rfl := Except.ok.inj h
    apply Binary64.isNaN_ofInt
  | float y =>
    obtain rfl := Except.ok.inj h
    apply hv
  | null | bool _ | text _ => cases h

end Value

/-! ### Cells -/

theorem Record.mem_of_get?_ofList {α : Type} {cells : List (String × α)} {name : String} {a : α}
    (h : (ofList cells).get? name = some a) :
  (name, a) ∈ cells
  := by
  induction cells using List.reverseRecOn with
  | nil => cases h
  | append_singleton cells c ih =>
    rw [ofList_concat, get?_insert] at h
    split at h
    · next hname =>
      obtain rfl := hname
      obtain rfl := Option.some.inj h
      apply List.mem_append_right _ List.mem_cons_self
    · apply List.mem_append_left _ (ih h)

theorem isNaN_coerceCell (t : ColumnType) (text? : Option String) :
  (coerceCell t text?).isNaN = false
  := by
  cases text? with
  | none => rfl
  | some text =>
    rw [coerceCell]
    split
    · rfl
    · cases hread : Value.read? t text with
      | none => rfl
      | some v => apply Value.isNaN_of_read? hread

/-- No cell of a typed row is a NaN. -/
theorem isNaN_cell_coerce (s : Schema) (r : RawRow) (name : String) :
  (Row.cell (coerce s r) name).isNaN = false
  := by
  rw [Row.cell]
  cases hget : (coerce s r).get? name with
  | none => rfl
  | some v =>
    obtain ⟨c, -, hcell⟩ := List.mem_map.mp (Record.mem_of_get?_ofList hget)
    obtain ⟨-, rfl⟩ := Prod.mk.inj hcell
    apply isNaN_coerceCell

namespace Filter

/-! ### Numerals of filters -/

/-- Every token that a lexer gives is one as texts hold it, but for the one that marks the end, also
before an error. -/
theorem Lexer.isRead_of_mem_items {l : Lexer} {t : Token} (h : .ok t ∈ l.items)
    (hend : t.isEnd = false) :
  t.IsRead
  := by
  induction hsteps : l.stepsLeft using Nat.strongRecOn generalizing l with
  | ind n ih =>
    cases hnext : l.next? with
    | none =>
      rw [items_of_finished (next?_eq_none_iff.mp hnext)] at h
      cases h
    | some next =>
      obtain ⟨item, m⟩ := next
      rw [items_of_next? hnext] at h
      rcases List.mem_cons.mp h with rfl | h
      · cases gives_of_next? hnext with
        | ending => cases hend
        | token ht => exact ht
      · apply ih m.stepsLeft (hsteps ▸ stepsLeft_next hnext) h rfl

/-! ### Values of expressions -/

theorem isNaN_of_map_bool {α : Type} {result : Except EvalError α} {f : α → Bool} {v : Value}
    (h : (result.map fun a => .bool (f a)) = .ok v) :
  v.isNaN = false
  := by
  cases result with
  | error err => cases h
  | ok a =>
    obtain rfl := Except.ok.inj h
    rfl

namespace Expr

variable {row : Row} {e : Expr} {v : Value} {a : Application}

/-- The value of an expression is a literal of it, a cell of the row or a boolean, and so it is no
NaN if none of the literals and cells is one. -/
theorem isNaN_of_value (hcells : ∀ name, (Row.cell row name).isNaN = false)
    (hliterals : ∀ w, literal w ∈ e.leaves → w.isNaN = false) (h : e.value row = .ok v) :
  v.isNaN = false
  := by
  induction e with
  | binary left op position right =>
    rw [value] at h
    split at h
    · cases h
    · split at h
      · cases h
      · apply isNaN_of_map_bool h
  | logical op operands =>
    rw [value_logical] at h
    apply isNaN_of_map_bool h
  | group inner ih =>
    rw [value] at h
    apply ih hliterals h
  | literal w =>
    rw [value] at h
    obtain rfl := Except.ok.inj h
    apply hliterals w (by simp [leaves])
  | column name position =>
    rw [value] at h
    obtain rfl := Except.ok.inj h
    apply hcells

theorem mem_applicationsOfAll {es : List Expr} :
  a ∈ applicationsOfAll es ↔ ∃ e ∈ es, a ∈ e.applications
  := by
  induction es with
  | nil => simp [applicationsOfAll]
  | cons e es ih => simp [applicationsOfAll, ih]

/-- The operands of the operators of a tree have no other leaves than the tree. -/
theorem mem_leaves_of_mem_applications (h : a ∈ e.applications) {leaf : Expr}
    (hleaf : leaf ∈ a.left.leaves ∨ leaf ∈ a.right.leaves) :
  leaf ∈ e.leaves
  := by
  induction e with
  | binary left op position right ihl ihr =>
    rw [applications] at h
    rw [leaves, List.mem_append]
    rcases List.mem_append.mp h with h | h
    · exact (List.mem_append.mp h).imp ihl ihr
    · obtain rfl := List.mem_singleton.mp h
      exact hleaf
  | logical op operands ih =>
    rw [applications] at h
    obtain ⟨e, he, ha⟩ := mem_applicationsOfAll.mp h
    rw [leaves, leavesOfAll_eq_flatMap]
    exact List.mem_flatMap.mpr ⟨e, he, ih e he ha⟩
  | group inner ih =>
    rw [applications] at h
    rw [leaves]
    apply ih h
  | literal v =>
    rw [applications] at h
    cases h
  | column name position =>
    rw [applications] at h
    cases h

/-- The literals of a filter that was read are no NaNs. -/
theorem isNaN_of_literal_mem_leaves {s : String} {columns : List String} {p : Policy}
    (h : read s columns p = .ok e) {w : Value} (hw : literal w ∈ e.leaves) :
  w.isNaN = false
  := by
  obtain ⟨hnormal, -⟩ := isNormalOver_of_read h
  have hreadable := hnormal.2 _ hw
  cases w with
  | float x =>
    simp only [isReadableOver, isReadable, Bool.and_eq_true, Bool.not_eq_true'] at hreadable
    apply hreadable.2
  | null | bool _ | int _ | text _ => rfl

end Expr

/-! ### Comparisons -/

/-- The operands of an operator have values on a row, which are compared as the doubles `x` and `y`
if they are compared as doubles. -/
def Application.Compares (a : Application) (row : Row) (x y : Binary64) : Prop :=
  ∃ v w, a.left.value row = .ok v ∧ a.right.value row = .ok w ∧
    v.number = .ok x ∧ w.number = .ok y

/-- No text is read as a NaN under any type, and a numeral of a filter is never negative or a NaN.
So whatever doubles an operator of a filter compares on a row of a loaded table, they have a numeric
order, and this is the answer. -/
theorem numbers_are_compared :
  (∀ t s v, Value.read t s = .ok v → v.isNaN = false) ∧
  (∀ (s : String) (t : Token), .ok t ∈ (Lexer.ofString s).items → t.kind = .number →
    ∃ x, t.literal? = some (.float x) ∧ x.negative = false ∧ x.isNaN = false) ∧
  ∀ names table sampleSize d, Dataset.load names table sampleSize = .ok d →
    ∀ s p e, read s d.headers p = .ok e →
    ∀ row ∈ d.rows, ∀ a ∈ e.applications, ∀ x y, a.Compares row x y →
      ∃ o, Binary64.compareNumbers? x y = some o ∧ Value.compareDoubles x y = o
  := by
  refine ⟨fun t s v h => Value.isNaN_of_read? (Value.read_eq_ok_iff.mp h), ?token, ?compared⟩
  case token =>
    intro s t ht hkind
    have hend : t.isEnd = false := by simp [Token.isEnd, hkind]
    apply (Lexer.isRead_of_mem_items ht hend).number hkind
  case compared =>
    intro names table sampleSize d hload s p e hread row hrow a ha x y hcompares
    obtain ⟨v, w, hleft, hright, hx, hy⟩ := hcompares
    obtain ⟨-, -, -, rfl⟩ := Dataset.load_eq_ok_iff.mp hload
    obtain ⟨r, -, rfl⟩ := List.mem_map.mp hrow
    have hcells := isNaN_cell_coerce (.inferred names table sampleSize) r
    have hliterals (u : Value) (hu : .literal u ∈ e.leaves) : u.isNaN = false :=
      Expr.isNaN_of_literal_mem_leaves hread hu
    have hv := Expr.isNaN_of_value hcells
      (fun u hu => hliterals u (Expr.mem_leaves_of_mem_applications ha (.inl hu))) hleft
    have hw := Expr.isNaN_of_value hcells
      (fun u hu => hliterals u (Expr.mem_leaves_of_mem_applications ha (.inr hu))) hright
    have horder : Binary64.compareNumbers? x y = some (compare x.signed y.signed) := by
      rw [Binary64.compareNumbers?, Value.isNaN_of_number hv hx, Value.isNaN_of_number hw hy]
      rfl
    exact ⟨_, horder, by rw [Value.compareDoubles, horder, Option.getD_some]⟩

/-- A numeral that is too large is compared as an infinity, and a cell that names a NaN is missing in
a column of floats. -/
theorem numbers_are_compared_of_overflow :
  ∃ d row i j infinity, infinity = Binary64.ofMagnitude false Binary64.infinite ∧
    Dataset.load ["x"] (["1e400", "nan"].map fun x => .ofList [("x", x)]) 1 = .ok d ∧
    read (comparisonText "x" .lt "5") d.headers .strict
      = .ok (.binary (.column "x" i) .lt j (.literal (.float (.ofInt 5)))) ∧
    d.rows = [row, .ofList [("x", .null)]] ∧
    (Application.mk (.column "x" i) .lt j (.literal (.float (.ofInt 5)))).Compares row infinity
      (.ofInt 5) ∧
    Binary64.compareNumbers? infinity (.ofInt 5) = some .gt ∧
    Value.compareDoubles infinity (.ofInt 5) = .gt
  := by
  let infinity := Binary64.ofMagnitude false Binary64.infinite
  let schema : Schema := ⟨["x"], .ofList [("x", .float)]⟩
  let row : Row := .ofList [("x", .float infinity)]
  have hload : Dataset.load ["x"] (["1e400", "nan"].map fun x => .ofList [("x", x)]) 1
      = .ok ⟨schema, [row, .ofList [("x", .null)]]⟩ := by decide +kernel
  have hfive : ((ofDigits "5".toList : Nat) : Int) = 5 := by decide
  obtain ⟨i, j, hread⟩ := @read_comparisonText "x" "5" ["x"] .strict .lt (by decide +kernel)
    (by decide) ⟨by decide, List.all_eq_true.mp rfl⟩ (by decide)
  rw [hfive] at hread
  have hcell : Row.cell row "x" = .float infinity := by decide +kernel
  have hcompares : (Application.mk (.column "x" i) .lt j (.literal (.float (.ofInt 5)))).Compares
      row infinity (.ofInt 5) := by
    refine ⟨.float infinity, .float (.ofInt 5), ?_, ?_, rfl, rfl⟩
    · rw [Expr.value, hcell]
    · rw [Expr.value]
  obtain ⟨o, horder, hanswer⟩ := numbers_are_compared.2.2 _ _ _ _ hload _ _ _ hread row
    List.mem_cons_self _ (by simp [Expr.applications]) _ _ hcompares
  have hgreater : Binary64.compareNumbers? infinity (.ofInt 5) = some .gt := by decide +kernel
  obtain rfl := Option.some.inj (horder.symm.trans hgreater)
  exact ⟨_, row, i, j, infinity, rfl, hload, hread, rfl, hcompares, hgreater, hanswer⟩

end Filter

end TableQuery
