import TableQuery.Proofs.Table.Inference
import TableQuery.Proofs.Table.Loading

/-!
# Types and their samples

The type of a sample is no less specific than any type that accepts all texts of the sample
(`foldl_fit_le`), and each text of the sample is accepted by some type no less specific than that
of the sample (`exists_accepts_of_mem`).  All integers are floats and every text is a string, so
the type of the sample itself accepts all of its texts, unless it is the type of booleans, which
accepts no numbers.  It is the type of booleans exactly for a sample of booleans that may have
numbers before them (`foldl_fit_eq_boolean_iff`), where only strings would accept the numbers too.
Any other sample has the most specific type that accepts its texts, in whatever order they stand
(`inferType_fits`).
-/

namespace TableQuery

/-! ### Numbers and booleans -/

namespace ColumnType

variable {text : String} {t : ColumnType}

/-- An integer is a float. -/
theorem accepts_float_of_accepts_integer (h : integer.accepts text = true) :
  float.accepts text = true
  := by
  obtain ⟨v, hv⟩ := Option.isSome_iff_exists.mp h
  obtain ⟨i, hint64, -⟩ := Option.map_eq_some_iff.mp hv
  obtain ⟨n, hint, -⟩ := Option.bind_eq_some_iff.mp hint64
  obtain ⟨hne, hdigits⟩ := digits_of_readInt? hint
  simp only [accepts, Value.read?, Binary64.read?, Decimal.read?, span_eq_self hdigits,
    Decimal.readFraction, List.append_nil, List.isEmpty_iff, hne, if_false, Decimal.readExponent?,
    Option.map_some, Option.isSome_some]

theorem accepts_float_of_le (hle : t ≤ float) (h : t.accepts text = true) :
  float.accepts text = true
  := by
  cases t with
  | integer => apply accepts_float_of_accepts_integer h
  | float => apply h
  | boolean | string => exact absurd hle (by decide)

/-- A boolean is no number. -/
theorem not_accepts_float_of_accepts_boolean (h : boolean.accepts text = true) :
  ¬ float.accepts text = true
  := by
  rw [Bool.not_eq_true]
  refine (not_accepts_numbers_of_all ?_).2
  obtain ⟨v, hv⟩ := Option.isSome_iff_exists.mp h
  obtain ⟨b, hread, -⟩ := Option.map_eq_some_iff.mp hv
  have hwords : ∀ word ∈ ["true".toList, "false".toList],
      word.all (fun c => !startsNumber c) = true := by
    decide
  apply hwords
  rw [Value.readBool?] at hread
  split at hread
  · next htrue => simp [of_decide_eq_true htrue]
  · split at hread
    · next hfalse => simp [of_decide_eq_true hfalse]
    · cases hread

theorem eq_boolean_or_le_float (h : t ≤ boolean) :
  t = boolean ∨ t ≤ float
  := by
  cases t with
  | integer | float => exact .inr (by decide)
  | boolean => exact .inl rfl
  | string => exact absurd h (by decide)

end ColumnType

/-! ### The type of a sample -/

section Samples

variable {sample numbers booleans : List String} {text : String} {t u : ColumnType}

/-- The type of a sample is no less specific than a type that accepts all texts of the sample. -/
theorem foldl_fit_le (htu : t ≤ u) (hu : ∀ text ∈ sample, u.accepts text = true) :
  sample.foldl ColumnType.fit t ≤ u
  := by
  induction sample generalizing t with
  | nil => apply htu
  | cons text sample ih =>
    apply ih
    · exact ColumnType.fit_le htu (hu text List.mem_cons_self)
    · intro text' htext'
      apply hu text' (List.mem_cons_of_mem text htext')

theorem le_foldl_fit (t : ColumnType) (sample : List String) :
  t ≤ sample.foldl ColumnType.fit t
  := by
  induction sample generalizing t with
  | nil => exact Nat.le_refl _
  | cons text sample ih => exact Nat.le_trans (ColumnType.le_fit t text) (ih _)

/-- A text of a sample is accepted by a type no less specific than that of the sample. -/
theorem exists_accepts_of_mem (t : ColumnType) (htext : text ∈ sample) :
  ∃ u, u ≤ sample.foldl ColumnType.fit t ∧ u.accepts text = true
  := by
  induction sample generalizing t with
  | nil => cases htext
  | cons first sample ih =>
    rcases List.mem_cons.mp htext with rfl | htext
    · use ColumnType.fit t text, le_foldl_fit _ sample
      apply ColumnType.accepts_fit
    · apply ih _ htext

/-- All texts of a sample of numbers are numbers. -/
theorem accepts_float_of_foldl_le (hle : sample.foldl ColumnType.fit t ≤ .float)
    (htext : text ∈ sample) :
  ColumnType.float.accepts text = true
  := by
  obtain ⟨u, hu, haccepts⟩ := exists_accepts_of_mem t htext
  apply ColumnType.accepts_float_of_le (Nat.le_trans hu hle) haccepts

/-- A boolean after numbers makes a type of booleans. -/
theorem fit_eq_boolean (ht : t ≤ .boolean) (htext : ColumnType.boolean.accepts text = true) :
  ColumnType.fit t text = .boolean
  := by
  rcases ColumnType.eq_boolean_or_le_float (ColumnType.fit_le ht htext) with hboolean | hle
  · apply hboolean
  · have hfloat := ColumnType.accepts_float_of_le hle (ColumnType.accepts_fit t text)
    exact absurd hfloat (ColumnType.not_accepts_float_of_accepts_boolean htext)

/-- Numbers, if any, and booleans to come after them. -/
structure NumbersThenBooleans (numbers booleans : List String) : Prop where
  float : ∀ text ∈ numbers, ColumnType.float.accepts text = true
  boolean : ∀ text ∈ booleans, ColumnType.boolean.accepts text = true
  booleans_ne_nil : booleans ≠ []

theorem NumbersThenBooleans.concat (h : NumbersThenBooleans numbers booleans)
    (htext : ColumnType.boolean.accepts text = true) :
  NumbersThenBooleans numbers (booleans ++ [text])
  := by
  refine ⟨h.float, ?_, by simp⟩
  intro text' htext'
  rcases List.mem_append.mp htext' with hmem | hmem
  · apply h.boolean text' hmem
  · rw [List.mem_singleton.mp hmem, htext]

theorem foldl_fit_eq_boolean (h : NumbersThenBooleans numbers booleans) :
  (numbers ++ booleans).foldl ColumnType.fit .integer = .boolean
  := by
  obtain ⟨hnumbers, hbooleans, hne⟩ := h
  have hle : numbers.foldl ColumnType.fit .integer ≤ .boolean :=
    Nat.le_trans (foldl_fit_le (u := .float) (by decide) hnumbers) (by decide)
  cases booleans with
  | nil => exact absurd rfl hne
  | cons first booleans =>
    rw [List.foldl_append, List.foldl_cons, fit_eq_boolean hle (hbooleans first List.mem_cons_self)]
    apply foldl_fit_of_accepts
    intro text htext
    apply hbooleans text (List.mem_cons_of_mem first htext)

/-- A sample of the type of booleans holds booleans, which may have numbers before them. -/
theorem foldl_fit_eq_boolean_iff :
  sample.foldl ColumnType.fit .integer = .boolean
    ↔ ∃ numbers booleans, NumbersThenBooleans numbers booleans ∧ sample = numbers ++ booleans
  := by
  constructor
  · intro h
    induction sample using List.reverseRecOn with
    | nil => cases h
    | append_singleton before text ih =>
      rw [List.foldl_append, List.foldl_cons, List.foldl_nil] at h
      have htext : ColumnType.boolean.accepts text = true := by
        rw [← h]
        apply ColumnType.accepts_fit
      have hle := ColumnType.le_fit (before.foldl ColumnType.fit .integer) text
      rw [h] at hle
      -- The type had been reached before the last text, or only numbers came before this text.
      rcases ColumnType.eq_boolean_or_le_float hle with hbefore | hfloat
      · obtain ⟨numbers, booleans, hsplit, rfl⟩ := ih hbefore
        use numbers, booleans ++ [text], hsplit.concat htext
        rw [List.append_assoc]
      · use before, [text]
        refine ⟨⟨fun text' => accepts_float_of_foldl_le hfloat, ?_, by simp⟩, rfl⟩
        intro text' htext'
        rw [List.mem_singleton.mp htext', htext]
  · rintro ⟨numbers, booleans, h, rfl⟩
    apply foldl_fit_eq_boolean h

end Samples

/-! ### The most specific type -/

/-- The type is the most specific one that accepts all texts of the sample. -/
structure ColumnType.Fits (t : ColumnType) (sample : List String) : Prop where
  accepts : ∀ text ∈ sample, t.accepts text = true
  le : ∀ u : ColumnType, (∀ text ∈ sample, u.accepts text = true) → t ≤ u

/-- Numbers and then booleans, at least one of each. -/
def NumbersFirst (sample : List String) : Prop :=
  ∃ numbers booleans, NumbersThenBooleans numbers booleans ∧ numbers ≠ [] ∧
    sample = numbers ++ booleans

/-- Numbers and booleans in any order, at least one of each. -/
structure IsMixed (sample : List String) : Prop where
  number : ∃ text ∈ sample, ColumnType.float.accepts text = true
  boolean : ∃ text ∈ sample, ColumnType.boolean.accepts text = true
  either : ∀ text ∈ sample,
    ColumnType.float.accepts text = true ∨ ColumnType.boolean.accepts text = true

section Fits

variable {sample sample' : List String} {t u : ColumnType}

theorem ColumnType.Fits.unique (ht : t.Fits sample) (hu : u.Fits sample) :
  t = u
  := le_antisymm (ht.le u hu.accepts) (hu.le t ht.accepts)

theorem ColumnType.Fits.of_perm (h : t.Fits sample) (hperm : sample'.Perm sample) :
  t.Fits sample'
  := by
  constructor
  · intro text htext
    apply h.accepts text (hperm.mem_iff.mp htext)
  · intro u hu
    apply h.le u
    intro text htext
    apply hu text (hperm.mem_iff.mpr htext)

theorem IsMixed.of_perm (h : IsMixed sample) (hperm : sample.Perm sample') :
  IsMixed sample'
  := by
  obtain ⟨⟨number, hnumber, hfloat⟩, ⟨boolean, hboolean, hbool⟩, heither⟩ := h
  refine ⟨⟨number, hperm.mem_iff.mp hnumber, hfloat⟩,
    ⟨boolean, hperm.mem_iff.mp hboolean, hbool⟩, ?_⟩
  intro text htext
  apply heither text (hperm.mem_iff.mpr htext)

theorem NumbersFirst.isMixed (h : NumbersFirst sample) :
  IsMixed sample
  := by
  obtain ⟨numbers, booleans, ⟨hnumbers, hbooleans, hbooleans_ne⟩, hnumbers_ne, rfl⟩ := h
  obtain ⟨number, hnumber⟩ := List.exists_mem_of_ne_nil numbers hnumbers_ne
  obtain ⟨boolean, hboolean⟩ := List.exists_mem_of_ne_nil booleans hbooleans_ne
  constructor
  · use number, List.mem_append_left booleans hnumber, hnumbers number hnumber
  · use boolean, List.mem_append_right numbers hboolean, hbooleans boolean hboolean
  · intro text htext
    apply (List.mem_append.mp htext).imp (hnumbers text) (hbooleans text)

/-- Of numbers and booleans together only strings accept all. -/
theorem ColumnType.Fits.eq_string_of_isMixed (h : t.Fits sample) (hmixed : IsMixed sample) :
  t = .string
  := by
  obtain ⟨⟨number, hnumber, hfloat⟩, ⟨boolean, hboolean, hbool⟩, -⟩ := hmixed
  have hnot_boolean : t ≠ .boolean := by
    rintro rfl
    exact not_accepts_float_of_accepts_boolean (h.accepts number hnumber) hfloat
  have hnot_float : ¬ t ≤ .float := by
    intro hle
    apply not_accepts_float_of_accepts_boolean hbool
    apply accepts_float_of_le hle (h.accepts boolean hboolean)
  cases t with
  | string => rfl
  | boolean => exact absurd rfl hnot_boolean
  | integer | float => exact absurd (by decide) hnot_float

theorem inferFromSample_eq_foldl (hne : sample ≠ []) :
  inferFromSample sample = sample.foldl ColumnType.fit .integer
  := by
  rw [inferFromSample, if_neg (by simpa using hne)]

theorem inferFromSample_of_numbersFirst (h : NumbersFirst sample) :
  inferFromSample sample = .boolean
  := by
  obtain ⟨numbers, booleans, hsplit, hne, rfl⟩ := h
  rw [inferFromSample_eq_foldl (by simp [hne]), foldl_fit_eq_boolean hsplit]

/-- The type of a sample fits it, unless its booleans come after numbers. -/
theorem fits_inferFromSample (hne : sample ≠ []) (hnot : ¬ NumbersFirst sample) :
  (inferFromSample sample).Fits sample
  := by
  rw [inferFromSample_eq_foldl hne]
  constructor
  · intro text htext
    obtain ⟨u, hu, haccepts⟩ := exists_accepts_of_mem .integer htext
    cases ht : sample.foldl ColumnType.fit .integer with
    | string => rfl
    | boolean =>
      obtain ⟨numbers, booleans, hsplit, rfl⟩ := foldl_fit_eq_boolean_iff.mp ht
      have hnumbers : numbers = [] := by
        by_contra hnumbers
        exact hnot ⟨numbers, booleans, hsplit, hnumbers, rfl⟩
      rw [hnumbers, List.nil_append] at htext
      apply hsplit.boolean text htext
    | float =>
      rw [ht] at hu
      apply ColumnType.accepts_float_of_le hu haccepts
    | integer =>
      rw [ht] at hu
      rwa [ColumnType.le_antisymm hu (ColumnType.integer_le u)] at haccepts
  · intro u hu
    apply foldl_fit_le (ColumnType.integer_le u) hu

/-- The order of a sample does not matter, unless it holds numbers and booleans alone. -/
theorem inferFromSample_eq_of_perm (hperm : sample'.Perm sample) (hnot : ¬ IsMixed sample) :
  inferFromSample sample' = inferFromSample sample
  := by
  by_cases hne : sample = []
  · subst hne
    rw [hperm.eq_nil]
  · have hne' : sample' ≠ [] := by
      rintro rfl
      exact hne hperm.symm.eq_nil
    have hfits' := fits_inferFromSample hne' fun h => hnot (h.isMixed.of_perm hperm)
    have hfits := fits_inferFromSample hne fun h => hnot h.isMixed
    apply hfits'.unique (hfits.of_perm hperm)

end Fits

/-! ### Columns -/

/-- The texts that the type of a column is inferred from. -/
def columnSample (rows : List RawRow) (name : String) (sampleSize : Nat) : List String :=
  (columnTexts rows name).take sampleSize

section Columns

variable {rows : List RawRow} {headers : List String} {name text : String} {sampleSize : Nat}

theorem columnSample_ne_nil (hsize : 0 < sampleSize) (htexts : columnTexts rows name ≠ []) :
  columnSample rows name sampleSize ≠ []
  := by
  rw [columnSample, ne_eq, List.take_eq_nil_iff, not_or]
  exact ⟨hsize.ne', htexts⟩

theorem isNullText_of_mem_columnSample (h : text ∈ columnSample rows name sampleSize) :
  isNullText text = false
  := by
  obtain ⟨-, hnull⟩ := List.mem_filter.mp (List.mem_of_mem_take h)
  simpa using hnull

/-- Of the texts of a sample those are lost that are numbers before booleans. -/
theorem coerceCell_inferType_eq_null_iff (h : text ∈ columnSample rows name sampleSize) :
  coerceCell (inferType rows name sampleSize) (some text) = .null
    ↔ NumbersFirst (columnSample rows name sampleSize) ∧ ColumnType.float.accepts text = true
  := by
  rw [coerceCell_eq_null_iff, isNullText_of_mem_columnSample h, inferType, ← columnSample]
  by_cases hfirst : NumbersFirst (columnSample rows name sampleSize)
  · rw [inferFromSample_of_numbersFirst hfirst]
    have hnot := @ColumnType.not_accepts_float_of_accepts_boolean text
    rcases hfirst.isMixed.either text h with hfloat | hboolean
    · have hnot_boolean : ¬ ColumnType.boolean.accepts text = true := fun h => hnot h hfloat
      simp [hfirst, hfloat, hnot_boolean]
    · simp [hboolean, hnot hboolean]
  · have hfits := fits_inferFromSample (List.ne_nil_of_mem h) hfirst
    simp [hfirst, hfits.accepts text h]

/-- The type of a column is the most specific one that accepts its sample, and no cell of the sample
is lost, unless the sample holds numbers and then booleans: the type is that of the booleans then,
and exactly the numbers are lost.  The order of the sample does not matter, unless it holds numbers
and booleans alone: in any other order than numbers first these make a column of strings. -/
theorem inferType_fits (hsize : 0 < sampleSize) (htexts : columnTexts rows name ≠ []) :
  (¬ NumbersFirst (columnSample rows name sampleSize) →
    (inferType rows name sampleSize).Fits (columnSample rows name sampleSize)) ∧
  (NumbersFirst (columnSample rows name sampleSize) →
    inferType rows name sampleSize = .boolean) ∧
  (∀ s, inferSchema rows headers sampleSize = .ok s → name ∈ headers →
    ∀ raw text, Record.get? raw name = some text → text ∈ columnSample rows name sampleSize →
      (Row.cell (coerce s raw) name = .null
        ↔ NumbersFirst (columnSample rows name sampleSize) ∧
          ColumnType.float.accepts text = true)) ∧
  (¬ IsMixed (columnSample rows name sampleSize) →
    ∀ rows' name' sampleSize',
      (columnSample rows' name' sampleSize').Perm (columnSample rows name sampleSize) →
      inferType rows' name' sampleSize' = inferType rows name sampleSize) ∧
  (IsMixed (columnSample rows name sampleSize) →
    ¬ NumbersFirst (columnSample rows name sampleSize) →
    inferType rows name sampleSize = .string)
  := by
  have hfits : ¬ NumbersFirst (columnSample rows name sampleSize) →
      (inferType rows name sampleSize).Fits (columnSample rows name sampleSize) :=
    fits_inferFromSample (columnSample_ne_nil hsize htexts)
  refine ⟨hfits, inferFromSample_of_numbersFirst, ?lost, ?order, ?mixed⟩
  case lost =>
    intro s hs hname raw text hget htext
    obtain ⟨hnodup, rfl⟩ := inferSchema_eq_ok_iff.mp hs
    rw [cell_coerce_inferred hnodup hname, hget, coerceCell_inferType_eq_null_iff htext]
  case order =>
    intro hnot rows' name' sampleSize' hperm
    apply inferFromSample_eq_of_perm hperm hnot
  case mixed =>
    intro hmixed hnot
    apply (hfits hnot).eq_string_of_isMixed hmixed

/-- A column of two numbers and a flag.  Its first two texts make a column of floats.  All three
make a column of booleans, in which the numbers are lost. -/
theorem inferType_fits_of_flag :
  ∃ rows : List RawRow, columnTexts rows "v" = ["1", " 2.5", "TRUE"] ∧ columnTexts rows "v" ≠ [] ∧
    0 < 2 ∧ (inferType rows "v" 2).Fits ["1", " 2.5"] ∧
    0 < 3 ∧ inferType rows "v" 3 = .boolean ∧
    ∃ s, inferSchema rows ["v"] 3 = .ok s ∧
      Row.cell (coerce s (.ofList [("v", " 2.5")])) "v" = .null
  := by
  have hsample : columnTexts [.ofList [("v", "1")], .ofList [("v", " 2.5")],
      .ofList [("v", "NULL")], .ofList [("v", "TRUE")]] "v" = ["1", " 2.5", "TRUE"] := by decide
  use [.ofList [("v", "1")], .ofList [("v", " 2.5")], .ofList [("v", "NULL")],
    .ofList [("v", "TRUE")]]
  have htexts := List.ne_nil_of_mem (hsample ▸ List.mem_cons_self)
  obtain ⟨hfits, -⟩ := @inferType_fits _ ["v"] "v" 2 (by decide) htexts
  obtain ⟨-, hboolean, hlost, -⟩ := @inferType_fits _ ["v"] "v" 3 (by decide) htexts
  simp only [columnSample, hsample] at hfits hboolean hlost
  have hfirst : NumbersFirst ["1", " 2.5", "TRUE"] :=
    ⟨["1", " 2.5"], ["TRUE"], ⟨by decide +kernel, by decide +kernel, by decide⟩, by decide, rfl⟩
  have hnot : ¬ NumbersFirst ["1", " 2.5"] := by
    intro h
    have hbooleans : ∀ text ∈ ["1", " 2.5"], ColumnType.boolean.accepts text = false := by
      decide +kernel
    obtain ⟨text, htext, haccepts⟩ := h.isMixed.boolean
    rw [hbooleans text htext] at haccepts
    cases haccepts
  refine ⟨hsample, htexts, by decide, hfits hnot, by decide, hboolean hfirst, _,
    inferSchema_eq_ok_iff.mpr ⟨by decide, rfl⟩, ?_⟩
  apply (hlost _ (inferSchema_eq_ok_iff.mpr ⟨by decide, rfl⟩) (by decide) _ " 2.5" rfl
    (by decide)).mpr
  exact ⟨hfirst, by decide +kernel⟩

/-- A number before a boolean is not accepted by the type that is inferred, and it is lost.  The
type depends on their order. -/
theorem not_fits_of_number_before_boolean :
  ∃ rows : List RawRow, columnTexts rows "v" = ["7", "true"] ∧
    inferType rows "v" 100 = .boolean ∧
    ¬ (inferType rows "v" 100).Fits (columnSample rows "v" 100) ∧
    ColumnType.string.Fits (columnSample rows "v" 100) ∧
    (∃ s, inferSchema rows ["v"] 100 = .ok s ∧
      rows.map (fun raw => Row.cell (coerce s raw) "v") = [.null, .bool true]) ∧
    inferType rows.reverse "v" 100 = .string
  := by
  have hsample : columnSample [.ofList [("v", "7")], .ofList [("v", "true")]] "v" 100
      = ["7", "true"] := by decide
  use [.ofList [("v", "7")], .ofList [("v", "true")]]
  have htype : inferType [.ofList [("v", "7")], .ofList [("v", "true")]] "v" 100 = .boolean := by
    decide +kernel
  rw [htype, hsample]
  refine ⟨by decide, rfl, ?_, ?_, ⟨_, inferSchema_eq_ok_iff.mpr ⟨by decide, rfl⟩, ?_⟩, ?_⟩
  · intro hfits
    have hnot : ColumnType.boolean.accepts "7" = false := by decide +kernel
    have hnumber := hfits.accepts "7" (by decide)
    rw [hnot] at hnumber
    cases hnumber
  · refine ⟨fun _ _ => rfl, ?_⟩
    intro u hu
    have hnot : ∀ t, t ≠ ColumnType.string → ∃ text ∈ ["7", "true"], t.accepts text = false := by
      intro t
      cases t <;> decide +kernel
    by_cases hstring : u = .string
    · rw [hstring]
      exact Nat.le_refl _
    · obtain ⟨text, htext, haccepts⟩ := hnot u hstring
      rw [hu text htext] at haccepts
      cases haccepts
  · decide +kernel
  · decide +kernel

end Columns

end TableQuery
