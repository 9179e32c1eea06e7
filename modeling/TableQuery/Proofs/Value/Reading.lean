import TableQuery.Proofs.Number.Numeral
import TableQuery.Proofs.Text.Blank
import TableQuery.Value.Reading

/-!
# Values that are read from texts

The text forms of integers and finite doubles are numerals without blanks, and they are read as the
numbers that they were written for.  The names of the infinities are no numerals, but a numeral that
is too large is read as an infinity.  So these are the only values that are read from a text and not
from their own text form (`Value.read_display_iff`).
-/

namespace TableQuery

section

variable {cs : List Char} {x : Binary64}

/-- A numeral has nothing to trim. -/
theorem trim_signed {negative : Prop} [Decidable negative]
    (h : ∀ c ∈ cs, c.isDigit = true ∨ c = '.') :
  Text.trim ((if negative then ['-'] else []) ++ cs) = (if negative then ['-'] else []) ++ cs
  := by
  apply Text.trim_eq_self
  intro c hc
  rcases List.mem_append.mp hc with hc | hc
  · split at hc
    · rw [List.mem_singleton.mp hc]
      rfl
    · cases hc
  · rcases h c hc with hdigit | rfl
    · apply Text.isBlankChar_of_range (toNat_of_isDigit hdigit) rfl
    · rfl

/-! ### Integers -/

/-- An integer is its sign and the digits of its size. -/
theorem readInt?_signed (i : Int) :
  readInt? ((if i < 0 then ['-'] else []) ++ toDigits i.natAbs) = some i
  := by
  have hdigits := isDigits_toDigits i.natAbs
  by_cases hnegative : i < 0
  · have hsign : readSign ('-' :: toDigits i.natAbs) = (true, toDigits i.natAbs) := rfl
    rw [if_pos hnegative, List.singleton_append, readInt?_eq_some_iff hsign, ofDigits_toDigits,
      if_pos rfl]
    exact ⟨hdigits, by omega⟩
  · rw [if_neg hnegative, List.nil_append, readInt?_eq_some_iff (readSign_of_isDigits hdigits),
      ofDigits_toDigits, if_neg Bool.false_ne_true]
    exact ⟨hdigits, by omega⟩

theorem fitInt64?_toInt (i : Int64) :
  fitInt64? i.toInt = some i
  := by
  have hrange : Int64.minValue.toInt ≤ i.toInt ∧ i.toInt ≤ Int64.maxValue.toInt :=
    ⟨Int64.minValue_le_toInt i, Int64.toInt_le i⟩
  rw [fitInt64?, if_pos hrange, Int64.ofInt_toInt]

namespace Value

/-- The text form of an integer is read as the integer. -/
theorem read?_intText (i : Int64) :
  read? .integer (intText i) = some (int i)
  := by
  have hdigits : ∀ c ∈ toDigits i.toInt.natAbs, c.isDigit = true ∨ c = '.' := by
    intro c hc
    exact .inl ((isDigits_toDigits _).2 c hc)
  simp only [read?, intText, String.toList_ofList, trim_signed hdigits, readInt64?,
    readInt?_signed, Option.bind_some, fitInt64?_toInt, Option.map_some]

/-! ### Doubles -/

/-- The text form of a finite double is read as the double. -/
theorem read?_plain (h : x.isFinite = true) :
  read? .float x.plain = some (float x)
  := by
  obtain ⟨rest, whole, fraction, htext, hnumeral, -⟩ := Binary64.isNumeral_plain h
  have hcharacters : ∀ c ∈ rest, c.isDigit = true ∨ c = '.' := by
    intro c hc
    rw [hnumeral.text] at hc
    rcases List.mem_append.mp hc with hc | hc
    · exact .inl (hnumeral.whole.2 c hc)
    · rcases List.mem_cons.mp hc with hc | hc
      · exact .inr hc
      · exact .inl (hnumeral.fraction.2 c hc)
  have htrim : Text.trim x.plain.toList = x.plain.toList := by
    rw [htext, Binary64.signText, trim_signed hcharacters]
  simp only [read?, htrim, Binary64.read?_plain h, Option.map_some]

/-- The name of a double that is not finite is no numeral. -/
theorem read?_plain_of_not_isFinite (h : x.isFinite = false) :
  read? .float x.plain = none
  := by
  have hnames : ∀ cs ∈ ["NaN", "inf", "-inf"], read? .float cs = none := by
    decide +kernel
  apply hnames
  rw [Binary64.plain, h, Binary64.signText]
  split
  · decide
  · rw [Bool.not_false, if_pos rfl]
    cases x.negative <;> decide

/-- What a numeral is read as is finite or an infinity. -/
theorem eq_infinity_of_read? (h : Binary64.read? cs = some x) (hfinite : x.isFinite = false) :
  x = .ofMagnitude x.negative Binary64.infinite
  := by
  have hnan : x.isNaN = false := by
    obtain ⟨d, -, rfl⟩ := Option.map_eq_some_iff.mp h
    apply Binary64.isNaN_ofDecimal
  have hmagnitude : x.magnitude = Binary64.infinite := by
    simp only [Binary64.isFinite, Binary64.isNaN, decide_eq_false_iff_not] at hfinite hnan
    omega
  obtain ⟨negative, magnitude, hlt⟩ := x
  subst hmagnitude
  rfl

/-! ### Values -/

variable {t : ColumnType} {s : String} {v : Value}

theorem read_eq_ok_iff :
  read t s = .ok v ↔ read? t s = some v
  := by
  rw [read]
  cases read? t s <;> simp

theorem type?_of_read? (h : read? t s = some v) :
  v.type? = some t
  := by
  cases t with
  | string =>
    obtain rfl := Option.some.inj h
    rfl
  | integer | float | boolean =>
    obtain ⟨a, -, rfl⟩ := Option.map_eq_some_iff.mp h
    rfl

/-- The text form of a value that was read is read as the value, provided that it is no float or a
finite one. -/
theorem read?_display (h : read? t s = some v) (hfinite : ∀ x, v = float x → x.isFinite = true) :
  read? t v.display = some v
  := by
  cases t with
  | string =>
    obtain rfl := Option.some.inj h
    rfl
  | integer =>
    obtain ⟨i, -, rfl⟩ := Option.map_eq_some_iff.mp h
    apply read?_intText
  | float =>
    obtain ⟨x, -, rfl⟩ := Option.map_eq_some_iff.mp h
    apply read?_plain (hfinite x rfl)
  | boolean =>
    obtain ⟨b, -, rfl⟩ := Option.map_eq_some_iff.mp h
    cases b <;> decide

/-- A value that is read from a text is read from its own text form as well, unless it is a float
that is not finite.  Then it is an infinity, and its text form spells no value of its type. -/
theorem read_display_iff (h : read t s = .ok v) :
  (read t v.display = .ok v ↔ ∀ x, v = float x → x.isFinite = true) ∧
    (read t v.display ≠ .ok v →
      (∃ negative, v = float (.ofMagnitude negative Binary64.infinite)) ∧
        read t v.display = .error ⟨v.display, t⟩)
  := by
  have hread := read_eq_ok_iff.mp h
  by_cases hfinite : ∀ x, v = float x → x.isFinite = true
  · have hback : read t v.display = .ok v := read_eq_ok_iff.mpr (read?_display hread hfinite)
    exact ⟨iff_of_true hback hfinite, fun hnot => absurd hback hnot⟩
  · obtain ⟨x, rfl, hx⟩ : ∃ x, v = float x ∧ x.isFinite = false := by
      simpa using hfinite
    obtain rfl : ColumnType.float = t := Option.some.inj (type?_of_read? hread)
    obtain ⟨y, hy, heq⟩ := Option.map_eq_some_iff.mp hread
    cases heq
    have hback : read .float (float x).display = .error ⟨(float x).display, .float⟩ := by
      rw [read, display, read?_plain_of_not_isFinite hx]
    refine ⟨iff_of_false (by simp [hback]) hfinite, fun _ => ⟨⟨x.negative, ?_⟩, hback⟩⟩
    rw [← eq_infinity_of_read? hy hx]

/-- A number between blanks is read back from its text form, and one that is too large is not. -/
theorem read_display_iff_of_overflow :
  (∃ v, read .float " +25e-1\t" = .ok v ∧ v.display = "2.5" ∧ read .float v.display = .ok v) ∧
    ∃ v, read .float "-1e400" = .ok v ∧ v.display = "-inf" ∧ read .float v.display ≠ .ok v
  := by
  let half := float (Binary64.ofRatio false 5 2)
  let infinity := float (.ofMagnitude true Binary64.infinite)
  have hhalf : read .float " +25e-1\t" = .ok half := by decide +kernel
  have hinfinity : read .float "-1e400" = .ok infinity := by decide +kernel
  refine ⟨⟨half, hhalf, by decide +kernel, ?_⟩, ⟨infinity, hinfinity, by decide +kernel, ?_⟩⟩
  · apply (read_display_iff hhalf).1.mpr
    intro x hx
    obtain rfl := float.inj hx
    decide +kernel
  · intro hback
    have hfinite := (read_display_iff hinfinity).1.mp hback _ rfl
    revert hfinite
    decide

end Value

end

end TableQuery
