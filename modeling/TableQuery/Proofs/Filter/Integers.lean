import TableQuery.Proofs.Filter.Acceptance
import TableQuery.Proofs.Filter.Rendering
import TableQuery.Proofs.Filter.Selection
import TableQuery.Proofs.Number.Order
import TableQuery.Proofs.Session.Views

/-!
# Integer columns

The integer of a filter is read as a double, and an integer cell is compared with it as a double.
So `name == n` selects the rows whose integer is rounded as `n` is, and `name < n` those whose
cell is missing or an integer below `n` that is rounded differently (`select_integer`).  Up to
2⁵³ integers are kept apart and both filters are exact; the first integer that is not is
2⁵³ + 1 (`select_integer_of_neighbour`).
-/

namespace TableQuery.Filter

/-! ### Texts of comparisons -/

/-- Digits are read as the double nearest to the integer that they spell. -/
theorem scans_digits {cs rest : List Char} (hcs : IsDigits cs) (hrest : IsBoundary rest) :
  Scans cs rest ⟨.number, String.ofList cs, some (.float (.ofInt (ofDigits cs))), 0⟩
  := by
  apply scans_iff.mpr ⟨.digits hcs hrest.isDigit hrest.fractionLength, _, rfl⟩
  simp only [literalOf, Binary64.read?_of_isDigits hcs]

/-- The text of a comparison of a name with a number. -/
def comparisonText (name : String) (op : Operator) (number : String) : String :=
  name ++ " " ++ op.symbol ++ " " ++ number

section

variable {name number digits : String} {columns : List String} {p : Policy} {w : Value}

/-- The tokens of a comparison of a name with a number. -/
theorem tokenize_comparisonText (op : Operator) (hname : isName name = true)
    (hnumber : Scans number.toList [] ⟨.number, number, some w, 0⟩) :
  ∃ t u v stop, tokenize (comparisonText name op number) = .ok ([t, u, v] ++ [.endAt stop]) ∧
    (t.kind = .identifier ∧ t.lexeme = name) ∧ u.kind = op.kind ∧
    v.kind = .number ∧ v.literal? = some w
  := by
  have hleft := (scans_name hname (isBoundary_spaced op.symbol (number.toList ++ []))).reads
  rw [← List.append_assoc] at hleft
  obtain ⟨ts, stop, htokens, hts⟩ :=
    (hleft.spaced (scans_operator op _) hnumber.reads (by simp)).tokenize
  have htext : String.ofList (name.toList ++ Expr.spaced op.symbol ++ number.toList)
      = comparisonText name op number := by
    simp [← String.toList_inj, comparisonText, Expr.spaced]
  rw [htext] at htokens
  obtain ⟨t, u, v, rfl⟩ : ∃ t u v, ts = [t, u, v] := by
    apply List.length_eq_three.mp
    rw [← List.length_map, hts]
    rfl
  simp only [List.map_cons, List.map_nil, List.cons_append, List.nil_append, List.cons.injEq,
    and_true] at hts
  obtain ⟨ht, hu, hv⟩ := hts
  refine ⟨t, u, v, stop, htokens, ⟨?_, ?_⟩, ?_, ?_, ?_⟩
  · exact congrArg Token.kind ht
  · exact congrArg Token.lexeme ht
  · exact congrArg Token.kind hu
  · exact congrArg Token.kind hv
  · exact congrArg Token.literal? hv

/-- Under a policy without a flaw a comparison of a column with a number is read as such. -/
theorem read_comparisonText_of_scans (op : Operator) (hname : isName name = true)
    (hmem : name ∈ columns) (hnumber : Scans number.toList [] ⟨.number, number, some w, 0⟩)
    (valid : p.flaw? = none) :
  ∃ i j, read (comparisonText name op number) columns p
    = .ok (.binary (.column name i) op j (.literal w))
  := by
  obtain ⟨t, u, v, stop, htokens, ⟨ht, rfl⟩, hu, hv, hvalue⟩ :=
    tokenize_comparisonText op hname hnumber
  have hop : u.kind.operator? = some op := by rw [hu, op.operator?_kind]
  have hexpression : Expression [t, u, v]
      (.binary (.column t.lexeme t.position) op u.position (.literal (v.literal?.getD .null))) :=
    ⟨_, .conjunction (.comparison (.operator (.operand (.leaf (.name ht))) hop
      (.leaf (.number hv)))), rfl⟩
  have hnames : NamesIn columns [t, u, v] := by
    refine namesIn_cons.mpr ⟨fun _ => hmem, namesIn_cons.mpr ⟨fun hk => ?_, ?_⟩⟩
    · rw [hk] at hop
      cases hop
    · apply namesIn_singleton
      rw [hv]
      exact fun hk => nomatch hk
  have hdepth : 1 ≤ p.maxDepth.toNat := by
    obtain ⟨-, hpos, -⟩ := Policy.flaw?_eq_none_iff.mp valid
    apply Nat.pos_of_ne_zero
    exact fun h => hpos (UInt64.toNat_inj.mp h)
  obtain ⟨c, f, hsteps, heq⟩ := hexpression.steps (r := rulesOf columns p) hnames hdepth
  refine ⟨t.position, u.position, read_eq_ok_iff.mpr ⟨_, htokens, ?_⟩⟩
  rw [parse_of_steps hsteps (by simp), ← heq, hvalue]
  rfl

/-- Under a policy without a flaw a comparison of a column with digits is read as such. -/
theorem read_comparisonText (op : Operator) (hname : isName name = true) (hmem : name ∈ columns)
    (hdigits : IsDigits digits.toList) (valid : p.flaw? = none) :
  ∃ i j, read (comparisonText name op digits) columns p
    = .ok (.binary (.column name i) op j (.literal (.float (.ofInt (ofDigits digits.toList)))))
  := by
  have hnumber := scans_digits hdigits isBoundary_nil
  rw [String.ofList_toList] at hnumber
  apply read_comparisonText_of_scans op hname hmem hnumber valid

end

/-! ### Comparisons of values -/

/-- Whether a value is an integer that is rounded to a double as `n` is. -/
def isNear (n : Nat) : Value → Bool
  | .int i => Binary64.ofInt i.toInt = Binary64.ofInt n
  | _ => false

/-- Whether a value is missing, or an integer below `n` that is rounded to another double. -/
def isBelow (n : Nat) : Value → Bool
  | .null => true
  | .int i => i.toInt < n ∧ Binary64.ofInt i.toInt ≠ Binary64.ofInt n
  | _ => false

section

variable {v : Value} {n : Nat}

/-- Integers and the double nearest to `n` stand in the order of the doubles. -/
theorem compareAsNumbers_ofInt (i : Int64) (n : Nat) :
  compareAsNumbers (.int i) (.float (.ofInt n))
    = .ok (compare (Binary64.ofInt i.toInt).signed (Binary64.ofInt n).signed)
  := by
  have hnumbers (x : Binary64) : compareAsNumbers (.int i) (.float x)
      = .ok (Value.compareDoubles (.ofInt i.toInt) x) := rfl
  rw [hnumbers, Value.compareDoubles, Binary64.compareNumbers?, Binary64.isNaN_ofInt,
    Binary64.isNaN_ofInt]
  rfl

/-- A comparison of a column with a literal holds as its operator says of the cell. -/
theorem holds_comparison (row : Row) (name : String) (i j : Nat) (op : Operator) (w : Value) :
  (Expr.binary (.column name i) op j (.literal w)).holds row = op.apply (Row.cell row name) w
  := by
  simp only [Expr.holds, Expr.value]
  cases op.apply (Row.cell row name) w <;> rfl

/-- A missing value or an integer equals the double nearest to `n` exactly if it is near `n`. -/
theorem apply_eq_ofInt (hv : v = .null ∨ v.type? = some .integer) :
  Operator.eq.apply v (.float (.ofInt n)) = .ok (isNear n v)
  := by
  cases v with
  | null => rfl
  | int i =>
    have hequal : isEqual (.int i) (.float (.ofInt n))
        = (compareAsNumbers (.int i) (.float (.ofInt n))).map (·.isEq) := rfl
    -- No integer is rounded to the negative zero, so equal doubles are the same double.
    have hiff := compare_eq_iff_eq (a := (Binary64.ofInt i.toInt).signed)
      (b := (Binary64.ofInt n).signed)
    rw [Binary64.signed_ofInt_inj] at hiff
    rw [Operator.apply, hequal, compareAsNumbers_ofInt, Except.map, isNear, Except.ok.injEq,
      Bool.eq_iff_iff, Ordering.isEq_iff_eq_eq, hiff, decide_eq_true_iff]
  | _ => simp [Value.type?] at hv

/-- A missing value or an integer comes before the double nearest to `n` exactly if it is
below `n`. -/
theorem apply_lt_ofInt (hv : v = .null ∨ v.type? = some .integer) :
  Operator.lt.apply v (.float (.ofInt n)) = .ok (isBelow n v)
  := by
  cases v with
  | null => rfl
  | int i =>
    have hcompare : compareValues (.int i) (.float (.ofInt n))
        = compareAsNumbers (.int i) (.float (.ofInt n)) := rfl
    have hiff := compare_lt_iff_lt (a := (Binary64.ofInt i.toInt).signed)
      (b := (Binary64.ofInt n).signed)
    rw [Binary64.signed_ofInt_lt_iff] at hiff
    rw [Operator.apply, hcompare, compareAsNumbers_ofInt, Except.map, isBelow, Except.ok.injEq,
      Bool.eq_iff_iff, Ordering.isLT_iff_eq_lt, hiff, decide_eq_true_iff]
  | _ => simp [Value.type?] at hv

/-- Below 2⁵³ only an integer itself is near it. -/
theorem isNear_iff_of_lt (hn : n < 2 ^ 53) (v : Value) :
  isNear n v = true ↔ v = .int (.ofNat n)
  := by
  cases v with
  | int i =>
    have hsmall : (Int64.ofNat n).toInt = n := by
      rw [Int64.toInt_ofNat_of_lt (by omega)]
    rw [isNear, decide_eq_true_iff, Binary64.ofInt_inj_of_lt hn, Value.int.injEq,
      ← Int64.toInt_inj, hsmall]
  | _ => simp [isNear]

/-- Up to 2⁵³ every smaller integer is below an integer. -/
theorem isBelow_iff_of_le (hn : n ≤ 2 ^ 53) (v : Value) :
  isBelow n v = true ↔ v = .null ∨ ∃ i, v = .int i ∧ i.toInt < n
  := by
  cases v with
  | null => simp [isBelow]
  | int i =>
    have hapart : i.toInt < n → Binary64.ofInt i.toInt ≠ Binary64.ofInt n := by
      intro hlt
      apply (Binary64.signed_ofInt_lt_iff.mp (Binary64.signed_ofInt_lt hn hlt)).2
    rw [isBelow, decide_eq_true_iff, and_iff_left_of_imp hapart]
    simp
  | _ => simp [isBelow]

end

/-! ### Selections -/

/-- On an integer column of a loaded table, under a policy without a flaw, `name == n` selects
exactly the rows whose integer is near `n`, and `name < n` exactly those whose cell is below `n`;
no row fails.  Below 2⁵³ the cells near `n` are `n` alone, and up to 2⁵³ those below `n` are the
missing ones and the smaller integers. -/
theorem select_integer {names : List String} {table : List RawRow} {sampleSize : Nat}
    {d : Dataset} {p : Policy} {name digits : String} {n : Nat}
    (loaded : Dataset.load names table sampleSize = .ok d) (valid : p.flaw? = none)
    (hname : isName name = true) (htype : d.schema.type? name = some .integer)
    (hdigits : IsDigits digits.toList) (spelled : ofDigits digits.toList = n) :
  select d.rows d.schema (name ++ " == " ++ digits) p
      = .ok (passing (fun row => isNear n (Row.cell row name)) d.rows) ∧
    select d.rows d.schema (name ++ " < " ++ digits) p
      = .ok (passing (fun row => isBelow n (Row.cell row name)) d.rows) ∧
    (n < 2 ^ 53 → ∀ v, isNear n v = true ↔ v = .int (.ofNat n)) ∧
    (n ≤ 2 ^ 53 → ∀ v, isBelow n v = true ↔ v = .null ∨ ∃ i, v = .int i ∧ i.toInt < n)
  := by
  subst spelled
  have hmem : name ∈ d.schema.headers := by
    obtain ⟨-, -, -, rfl⟩ := Dataset.load_eq_ok_iff.mp loaded
    apply contains_inferred.mp
    rw [Schema.contains, Record.contains]
    exact Option.isSome_of_eq_some htype
  have htyped : ∀ row ∈ d.rows,
      Row.cell row name = .null ∨ (Row.cell row name).type? = some .integer := by
    obtain ⟨t, ht, hrows⟩ := (Dataset.wellFormed_of_load loaded).typed name hmem
    rw [htype] at ht
    cases ht
    apply hrows
  have heq : name ++ " == " ++ digits = comparisonText name .eq digits := by
    simp [← String.toList_inj, comparisonText, Operator.symbol]
  have hlt : name ++ " < " ++ digits = comparisonText name .lt digits := by
    simp [← String.toList_inj, comparisonText, Operator.symbol]
  refine ⟨?_, ?_, isNear_iff_of_lt, isBelow_iff_of_le⟩
  · obtain ⟨i, j, hread⟩ := read_comparisonText .eq hname hmem hdigits valid
    rw [heq]
    apply select_eq_passing hread
    intro row hrow
    rw [holds_comparison, apply_eq_ofInt (htyped row hrow)]
  · obtain ⟨i, j, hread⟩ := read_comparisonText .lt hname hmem hdigits valid
    rw [hlt]
    apply select_eq_passing hread
    intro row hrow
    rw [holds_comparison, apply_lt_ofInt (htyped row hrow)]

/-- The orders of more than 41, written with a zero in front. -/
theorem select_integer_of_orders :
  ∃ d, Dataset.load ["orders"] ([" 42", "", "-3"].map fun n => .ofList [("orders", n)]) 100
      = .ok d ∧
    Policy.lenient.flaw? = none ∧ isName "orders" = true ∧
    d.schema.type? "orders" = some .integer ∧
    IsDigits "042".toList ∧ ofDigits "042".toList = 42 ∧
    select d.rows d.schema "orders == 042" .lenient
      = .ok (passing (fun row => isNear 42 (Row.cell row "orders")) d.rows) ∧
    select d.rows d.schema "orders < 042" .lenient
      = .ok (passing (fun row => isBelow 42 (Row.cell row "orders")) d.rows)
  := by
  have hload := @Dataset.load_of_nodup ["orders"]
    ([" 42", "", "-3"].map fun n => .ofList [("orders", n)]) 100 (by decide) (by decide)
    (by decide)
  have hname : isName "orders" = true := by decide +kernel
  have htype : (Schema.inferred ["orders"]
      ([" 42", "", "-3"].map fun n => .ofList [("orders", n)]) 100).type? "orders"
      = some .integer := by decide +kernel
  have hdigits : IsDigits "042".toList := ⟨by decide, List.all_eq_true.mp rfl⟩
  obtain ⟨heq, hlt, -, -⟩ :=
    select_integer hload (by decide : Policy.lenient.flaw? = none) hname htype hdigits rfl
  exact ⟨_, hload, by decide, hname, htype, hdigits, rfl, heq, hlt⟩

/-- A filter on an integer column is not exact above 2⁵³: the integer 2⁵³ is selected as equal to
2⁵³ + 1, and not as less. -/
theorem select_integer_of_neighbour :
  ∃ d row, Dataset.load ["n"] [.ofList [("n", "9007199254740992")]] 100 = .ok d ∧
    Policy.strict.flaw? = none ∧ isName "n" = true ∧ d.schema.type? "n" = some .integer ∧
    d.rows = [row] ∧ Row.cell row "n" = .int 9007199254740992 ∧
    select d.rows d.schema "n == 9007199254740993" .strict = .ok ([row], ⟨1, 1, 0⟩) ∧
    select d.rows d.schema "n < 9007199254740993" .strict = .ok ([], ⟨1, 0, 0⟩)
  := by
  have hload := @Dataset.load_of_nodup ["n"] [.ofList [("n", "9007199254740992")]] 100
    (by decide) (by decide) (by decide)
  refine ⟨_, _, hload, by decide, by decide +kernel, by decide +kernel, rfl, by decide +kernel,
    by decide +kernel, by decide +kernel⟩

end TableQuery.Filter
