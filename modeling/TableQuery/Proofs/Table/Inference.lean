import Mathlib.Data.List.Induction
import TableQuery.Table.Inference
import TableQuery.Proofs.Value.Reading

/-!
# Inferred types

A text asks for the most specific type from the current one on that accepts it
(`ColumnType.le_fit`, `ColumnType.accepts_fit`, `ColumnType.fit_le`).  The type of a sample accepts
the last text of the sample (`accepts_inferFromSample`), and a sample of texts that all ask for
the same type has that type (`inferFromSample_eq`).  The text form of a value asks for the type of
the value, provided that it can be read back (`fit_display`).
-/

namespace TableQuery

namespace ColumnType

variable {t u : ColumnType} {text : String}

theorem integer_le (t : ColumnType) :
  integer ≤ t
  := Nat.zero_le t.rank

theorem le_antisymm (h : t ≤ u) (h' : u ≤ t) :
  t = u
  := by
  have hrank : t.rank = u.rank := Nat.le_antisymm h h'
  cases t <;> cases u <;> first | rfl | cases hrank

/-- Strings are the only type that does not widen. -/
theorem eq_string_of_widen (h : t.widen? = none) :
  t = string
  := by
  cases t <;> first | rfl | cases h

theorem le_fit (t : ColumnType) (text : String) :
  t ≤ fit t text
  := by
  fun_induction fit t text with
  | case1 t _ => apply Nat.le_refl
  | case2 t _ u hwiden ih =>
    have hrank := rank_of_widen hwiden
    apply Nat.le_trans _ ih
    omega
  | case3 t _ _ => apply Nat.le_refl

/-- The type that fits a text accepts it. -/
theorem accepts_fit (t : ColumnType) (text : String) :
  (fit t text).accepts text = true
  := by
  fun_induction fit t text with
  | case1 t h => exact h
  | case2 t _ u _ ih => exact ih
  | case3 t h hlast => exact absurd (eq_string_of_widen hlast ▸ accepts_string text) h

/-- The type that fits a text is the most specific one that accepts it. -/
theorem fit_le (hle : t ≤ u) (hu : u.accepts text = true) :
  fit t text ≤ u
  := by
  fun_induction fit t text with
  | case1 t _ => exact hle
  | case2 t h v hwiden ih =>
    have hne : t.rank ≠ u.rank := by
      intro hrank
      apply h
      rwa [le_antisymm hle (Nat.le_of_eq hrank.symm)]
    have hrank := rank_of_widen hwiden
    apply ih
    apply Nat.le_trans (Nat.le_of_eq hrank) (Nat.lt_of_le_of_ne hle hne)
  | case3 t _ _ => exact hle

theorem fit_eq (hle : t ≤ u) (hu : u.accepts text = true)
    (hleast : ∀ v, v.accepts text = true → u ≤ v) :
  fit t text = u
  := le_antisymm (fit_le hle hu) (hleast _ (accepts_fit t text))

/-- A type that accepts a text is kept. -/
theorem fit_of_accepts (h : t.accepts text = true) :
  fit t text = t
  := le_antisymm (fit_le (Nat.le_refl _) h) (le_fit t text)

end ColumnType

/-! ### Samples -/

section Samples

variable {sample : List String} {t : ColumnType}

/-- Texts that a type accepts do not change it. -/
theorem foldl_fit_of_accepts (h : ∀ text ∈ sample, t.accepts text = true) :
  sample.foldl ColumnType.fit t = t
  := by
  induction sample with
  | nil => rfl
  | cons text sample ih =>
    rw [List.foldl_cons, ColumnType.fit_of_accepts (h text (by simp))]
    apply ih
    intro text' htext'
    apply h text' (by simp [htext'])

/-- The type of a sample accepts a text of the sample, namely the last one. -/
theorem exists_accepts_inferFromSample (hne : sample ≠ []) :
  ∃ text ∈ sample, (inferFromSample sample).accepts text = true
  := by
  cases sample using List.reverseRecOn with
  | nil => exact absurd rfl hne
  | append_singleton before text =>
    use text, by simp
    rw [inferFromSample, if_neg (by simp), List.foldl_append]
    apply ColumnType.accepts_fit

/-- Texts that all ask for the same type have this type. -/
theorem inferFromSample_eq (hne : sample ≠ [])
    (h : ∀ text ∈ sample, ColumnType.fit .integer text = t) :
  inferFromSample sample = t
  := by
  cases sample with
  | nil => exact absurd rfl hne
  | cons text sample =>
    rw [inferFromSample, if_neg (by simp), List.foldl_cons, h text (by simp)]
    apply foldl_fit_of_accepts
    intro text' htext'
    rw [← h text' (by simp [htext'])]
    apply ColumnType.accepts_fit

end Samples

/-! ### Texts that are no numbers -/

section NoNumbers

variable {c : Char} {cs : List Char} {text : String} {t : ColumnType}

/-- One or more digits follow the sign of an integer. -/
theorem digits_of_readInt? {i : Int} (h : readInt? cs = some i) :
  IsDigits (readSign cs).2
  := ((readInt?_eq_some_iff rfl).mp h).1

/-- An integer is spelled with digits and signs. -/
theorem isDigit_or_sign_of_readInt? {i : Int} (h : readInt? cs = some i) (hc : c ∈ cs) :
  c.isDigit = true ∨ c = '-' ∨ c = '+'
  := by
  obtain ⟨-, hdigits⟩ := digits_of_readInt? h
  rw [readSign.eq_def] at hdigits
  split at hdigits
  · rcases List.mem_cons.mp hc with rfl | hc
    · exact .inr (.inl rfl)
    · exact .inl (hdigits c hc)
  · rcases List.mem_cons.mp hc with rfl | hc
    · exact .inr (.inr rfl)
    · exact .inl (hdigits c hc)
  · exact .inl (hdigits c hc)

theorem readInt?_eq_none (hc : c ∈ cs) (hdigit : c.isDigit = false) (hminus : c ≠ '-')
    (hplus : c ≠ '+') :
  readInt? cs = none
  := by
  cases hread : readInt? cs with
  | none => rfl
  | some i =>
    rcases isDigit_or_sign_of_readInt? hread hc with h | h | h
    · apply absurd (hdigit.symm.trans h) Bool.false_ne_true
    · apply absurd h hminus
    · apply absurd h hplus

theorem not_accepts_integer_of_mem (hmem : c ∈ text.toList) (hblank : Text.isBlankChar c = false)
    (hdigit : c.isDigit = false) (hminus : c ≠ '-') (hplus : c ≠ '+') :
  ColumnType.integer.accepts text = false
  := by
  have hread := readInt?_eq_none (Text.mem_trim hmem hblank) hdigit hminus hplus
  simp [ColumnType.accepts, Value.read?, readInt64?, hread]

/-- The text of a double has a point, or it is the name of a value that is no number. -/
theorem not_accepts_integer_plain (x : Binary64) :
  ColumnType.integer.accepts x.plain = false
  := by
  have hpoint (d : Decimal) : '.' ∈ d.positional := by
    rw [Decimal.positional]
    split
    · simp
    · simp [withPoint]
  rw [Binary64.plain]
  split
  · apply not_accepts_integer_of_mem (c := 'N') <;> decide
  · split
    · apply not_accepts_integer_of_mem (c := 'i') (by simp) <;> decide
    · split
      · apply not_accepts_integer_of_mem (c := '.') (by simp) <;> decide
      · apply not_accepts_integer_of_mem (c := '.') (by simp [hpoint]) <;> decide

/-- Whether a number may start with the character. -/
def startsNumber (c : Char) : Bool :=
  c.isDigit || c = '-' || c = '+' || c = '.'

theorem startsNumber_toLower (h : startsNumber c = true) :
  startsNumber c.toLower = true
  := by
  rw [Text.toLower_eq_self]
  · exact h
  · rintro ⟨hlow, -⟩
    simp only [startsNumber, Bool.or_eq_true, decide_eq_true_eq] at h
    rcases h with ((hdigit | rfl) | rfl) | rfl
    · have := toNat_of_isDigit hdigit
      omega
    all_goals revert hlow; decide

/-- A numeral starts with a sign, a digit or a point. -/
theorem Decimal.read?_cons_eq_none (hdigit : c.isDigit = false) (hminus : c ≠ '-')
    (hplus : c ≠ '+') (hpoint : c ≠ '.') :
  Decimal.read? (c :: cs) = none
  := by
  have hspan : (c :: cs).span Char.isDigit = ([], c :: cs) := by
    simp [List.span_eq_takeWhile_dropWhile, hdigit]
  have hfraction : Decimal.readFraction (c :: cs) = ([], c :: cs) := by
    unfold Decimal.readFraction
    split
    · next h => cases h; contradiction
    · rfl
  simp only [Decimal.read?, readSign_cons hminus hplus, hspan, hfraction, List.append_nil,
    List.isEmpty_nil, if_true]

/-- A word is no number. -/
theorem not_accepts_numbers_of_all
    (h : (Text.asciiLower (Text.trim text.toList)).all (fun c => !startsNumber c) = true) :
  ColumnType.integer.accepts text = false ∧ ColumnType.float.accepts text = false
  := by
  simp only [ColumnType.accepts, Option.isSome_eq_false_iff, Option.isNone_iff_eq_none,
    Value.read?, Option.map_eq_none_iff, readInt64?, Binary64.read?]
  cases htrim : Text.trim text.toList with
  | nil => decide
  | cons c cs =>
    have hlower : startsNumber c.toLower = false := by
      simpa using List.all_eq_true.mp h c.toLower (by simp [htrim, Text.asciiLower])
    have hstart : startsNumber c = false := by
      rw [Bool.eq_false_iff]
      intro hstart
      rw [startsNumber_toLower hstart] at hlower
      cases hlower
    obtain ⟨hdigit, hminus, hplus, hpoint⟩ : c.isDigit = false ∧ c ≠ '-' ∧ c ≠ '+' ∧ c ≠ '.' := by
      simpa [startsNumber, and_assoc] using hstart
    constructor
    · rw [readInt?_eq_none List.mem_cons_self hdigit hminus hplus, Option.bind_none]
    · apply Decimal.read?_cons_eq_none hdigit hminus hplus hpoint

theorem isNullText_iff :
  isNullText text = true
    ↔ Text.trim text.toList = [] ∨ Text.asciiLower (Text.trim text.toList) = "null".toList
  := by
  simp [isNullText, Text.spells]

/-- A text that spells a number or a boolean carries a value. -/
theorem isNullText_of_accepts (ht : t ≠ .string) (h : t.accepts text = true) :
  isNullText text = false
  := by
  rw [Bool.eq_false_iff]
  intro hnull
  -- Nothing is left of the text without its blanks, or a word, which is neither number nor boolean.
  have hword : Text.asciiLower (Text.trim text.toList) ∈ [[], "null".toList] := by
    rw [List.mem_cons, List.mem_singleton]
    apply (isNullText_iff.mp hnull).imp_left
    intro htrim
    rw [htrim, Text.asciiLower, List.map_nil]
  have hletters : ∀ word ∈ [[], "null".toList], word.all (fun c => !startsNumber c) = true := by
    decide
  obtain ⟨hinteger, hfloat⟩ := not_accepts_numbers_of_all (hletters _ hword)
  cases t with
  | integer => apply Bool.false_ne_true (hinteger.symm.trans h)
  | float => apply Bool.false_ne_true (hfloat.symm.trans h)
  | boolean =>
    have hne : ∀ word ∈ [[], "null".toList], word ≠ "true".toList ∧ word ≠ "false".toList := by
      decide
    have htrue : Text.spells "true" (Text.trim text.toList) = false :=
      decide_eq_false (hne _ hword).1
    have hfalse : Text.spells "false" (Text.trim text.toList) = false :=
      decide_eq_false (hne _ hword).2
    simp [ColumnType.accepts, Value.read?, Value.readBool?, htrue, hfalse] at h
  | string => apply ht rfl

/-- Booleans are no numbers. -/
theorem not_accepts_numbers_bool (b : Bool) :
  ColumnType.integer.accepts (Value.bool b).display = false ∧
    ColumnType.float.accepts (Value.bool b).display = false
  := by
  apply not_accepts_numbers_of_all
  cases b <;> decide

/-- The text form of a value that can be read back asks for the type of the value, unless it is
a text, which may spell a value of another type. -/
theorem fit_display {v : Value} (htype : v.type? = some t) (ht : t ≠ .string)
    (hread : Value.read t v.display = .ok v) :
  ColumnType.fit .integer v.display = t
  := by
  have haccepts : t.accepts v.display = true := by
    rw [ColumnType.accepts, Value.read_eq_ok_iff.mp hread, Option.isSome_some]
  apply ColumnType.fit_eq (ColumnType.integer_le t) haccepts
  intro u hu
  cases v with
  | null => cases htype
  | text s =>
    cases htype
    exact absurd rfl ht
  | int i =>
    cases htype
    apply ColumnType.integer_le
  | float x =>
    cases htype
    cases u with
    | integer => apply absurd ((not_accepts_integer_plain x).symm.trans hu) Bool.false_ne_true
    | float | boolean | string => decide
  | bool b =>
    cases htype
    obtain ⟨hinteger, hfloat⟩ := not_accepts_numbers_bool b
    cases u with
    | integer => apply absurd (hinteger.symm.trans hu) Bool.false_ne_true
    | float => apply absurd (hfloat.symm.trans hu) Bool.false_ne_true
    | boolean | string => decide

end NoNumbers

end TableQuery
