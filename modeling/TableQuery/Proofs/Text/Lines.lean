import Mathlib.Data.Nat.Digits.Defs
import TableQuery.Text.Quoted

/-!
# Lines

`Text.lineBreaks` are the characters of a text at which a line ends.  A text that is put together
has those of its parts (`Text.lineBreaks_append`), numbers have none, and quoting takes them away
(`Text.lineBreaks_quoted`).
-/

namespace TableQuery.Text

/-- The characters that end a line: line feed, line tabulation, form feed, carriage return, next
line, and the separators of lines and paragraphs. -/
def lineEnds : List Char :=
  ['\n', '\x0b', '\x0c', '\r', '\u0085', '\u2028', '\u2029']

/-- Whether a line ends at a character. -/
def isLineBreak (c : Char) : Bool :=
  lineEnds.contains c

/-- The characters of a text at which a line ends. -/
def lineBreaks (s : String) : List Char :=
  s.toList.filter isLineBreak

/-- No line ends in the text. -/
def IsOneLine (s : String) : Prop :=
  lineBreaks s = []

instance (s : String) : Decidable (IsOneLine s) :=
  inferInstanceAs (Decidable (lineBreaks s = []))

theorem IsOneLine.lineBreaks_eq {s : String} (h : IsOneLine s) :
  lineBreaks s = []
  := h

theorem isOneLine_iff {s : String} :
  IsOneLine s ↔ ∀ c ∈ s.toList, isLineBreak c = false
  := by
  simp [IsOneLine, lineBreaks, List.filter_eq_nil_iff]

theorem isOneLine_ofList {cs : List Char} :
  IsOneLine (String.ofList cs) ↔ ∀ c ∈ cs, isLineBreak c = false
  := by
  rw [isOneLine_iff, String.toList_ofList]

/-- A text with the line breaks of a list of texts is on one line if they all are. -/
theorem isOneLine_iff_of_lineBreaks_eq {s : String} {texts : List String}
    (h : lineBreaks s = texts.flatMap lineBreaks) :
  IsOneLine s ↔ ∀ text ∈ texts, IsOneLine text
  := by
  rw [IsOneLine, h, List.flatMap_eq_nil_iff]
  rfl

@[simp]
theorem lineBreaks_append (s t : String) :
  lineBreaks (s ++ t) = lineBreaks s ++ lineBreaks t
  := by
  rw [lineBreaks, String.toList_append, List.filter_append, lineBreaks, lineBreaks]

/-- A list of texts has the line breaks of the texts, if what stands between them has none. -/
theorem lineBreaks_intercalate {separator : String} (h : IsOneLine separator)
    (texts : List String) :
  lineBreaks (separator.intercalate texts) = texts.flatMap lineBreaks
  := by
  induction texts with
  | nil => rfl
  | cons text texts ih =>
    cases texts with
    | nil => simp
    | cons next texts =>
      rw [String.intercalate_cons_cons, lineBreaks_append, lineBreaks_append, h.lineBreaks_eq, ih,
        List.append_nil]
      rfl

/-- No character of a class ends a line, if those that end lines are not in it. -/
theorem isLineBreak_of_any {p : Char → Bool} (hp : lineEnds.any p = false) {c : Char}
    (h : p c = true) :
  isLineBreak c = false
  := by
  apply Bool.eq_false_iff.mpr
  intro hc
  have hmem : c ∈ lineEnds := by simpa [isLineBreak] using hc
  apply List.any_eq_false.mp hp c hmem h

/-! ### Numbers -/

@[simp]
theorem lineBreaks_toString (n : Nat) :
  lineBreaks (toString n) = []
  := by
  apply isOneLine_iff.mpr
  intro c hc
  have hdigits : c ∈ Nat.toDigits 10 n := by simpa [toString, Nat.toList_repr] using hc
  apply isLineBreak_of_any (p := Char.isDigit) (by decide)
  apply Nat.isDigit_of_mem_toDigits (by decide) (by decide) hdigits

theorem isLineBreak_digitChar (n : Nat) :
  isLineBreak (Nat.digitChar n) = false
  := by
  simp only [isLineBreak, lineEnds, List.contains_eq_mem, List.mem_cons, List.not_mem_nil, or_false,
    decide_eq_false_iff_not, not_or]
  refine ⟨?_, ?_, ?_, ?_, ?_, ?_, ?_⟩
  all_goals apply Nat.digitChar_ne _ (by decide)

/-- The digits of a number end no line, whatever its base. -/
theorem isLineBreak_of_mem_toDigits {base n : Nat} (hbase : 1 < base) {c : Char}
    (h : c ∈ Nat.toDigits base n) :
  isLineBreak c = false
  := by
  induction n using Nat.strongRecOn with
  | ind n ih =>
    rcases Nat.lt_or_ge n base with hlt | hge
    · rw [Nat.toDigits_of_lt_base hlt, List.mem_singleton] at h
      rw [h]
      apply isLineBreak_digitChar
    · rw [Nat.toDigits_of_base_le hbase hge, List.mem_append, List.mem_singleton] at h
      rcases h with h | rfl
      · exact ih (n / base) (Nat.div_lt_self (by omega) hbase) h
      · apply isLineBreak_digitChar

/-! ### Quoted texts -/

/-- A character is written as it is, as a letter or sign after a backslash, or as its number. -/
theorem escaped_cases (c : Char) :
  escaped c = [c] ∨ (∃ d ∈ ['0', 't', 'r', 'n', '"', '\\'], escaped c = ['\\', d]) ∨
    escaped c = ['\\', 'u', '{'] ++ codePoint c ++ ['}']
  := by
  unfold escaped
  split_ifs <;> simp

/-- A character at which a line ends is not written as it is. -/
theorem escaped_ne_of_isLineBreak {c : Char} (h : isLineBreak c = true) :
  escaped c ≠ [c]
  := by
  have hall : lineEnds.all (fun c => escaped c ≠ [c]) = true := by decide +kernel
  have hmem : c ∈ lineEnds := by simpa [isLineBreak] using h
  apply of_decide_eq_true (List.all_eq_true.mp hall c hmem)

theorem isLineBreak_of_mem_escaped {c d : Char} (h : d ∈ escaped c) :
  isLineBreak d = false
  := by
  have hfixed {cs : List Char} (hcs : cs.any isLineBreak = false) (hd : d ∈ cs) :
      isLineBreak d = false := by
    simpa using List.any_eq_false.mp hcs d hd
  rcases escaped_cases c with hc | ⟨e, he, hc⟩ | hc
  · rw [hc, List.mem_singleton] at h
    subst h
    apply Bool.eq_false_iff.mpr
    intro hbreak
    apply escaped_ne_of_isLineBreak hbreak hc
  · have hall : ['0', 't', 'r', 'n', '"', '\\'].any isLineBreak = false := by decide
    simp only [hc, List.mem_cons, List.not_mem_nil, or_false] at h
    rcases h with rfl | rfl
    · decide
    · apply hfixed hall he
  · simp only [hc, List.mem_append] at h
    rcases h with (h | h) | h
    · apply hfixed (by decide) h
    · apply isLineBreak_of_mem_toDigits (by decide) h
    · apply hfixed (by decide) h

/-- Quoting puts a text on one line. -/
@[simp]
theorem lineBreaks_quoted (s : String) :
  lineBreaks (quoted s) = []
  := by
  apply isOneLine_iff.mpr
  intro c hc
  simp only [quoted, String.toList_ofList, List.cons_append, List.mem_cons, List.mem_append,
    List.mem_flatMap, List.not_mem_nil, or_false] at hc
  rcases hc with rfl | ⟨d, -, hd⟩ | rfl
  · decide
  · apply isLineBreak_of_mem_escaped hd
  · decide

end TableQuery.Text
