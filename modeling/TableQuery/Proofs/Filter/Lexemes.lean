import TableQuery.Proofs.Filter.Tokens

/-!
# Spellings of tokens

`IsLexeme rest k cs` says that the text `cs` before `rest` is all of a token of the kind `k`: it is
spelled as such tokens are, and what follows cannot go on with it.  These are the tokens that `shape`
finds (`exists_isLexeme_of_shape`, `shape_of_isLexeme`), and each of them has a value
(`exists_literalOf`), so numbers are always read.  Of what follows a token only the first character
matters, unless it is a point: `IsLexeme.before` puts one text in the place of another.
-/

namespace TableQuery.Filter

/-- The text `cs` before `rest` is all of a token of the kind `k`. -/
inductive IsLexeme (rest : List Char) : Token.Kind → List Char → Prop where
  | symbol {k : Token.Kind} {cs : List Char} (h : symbol? (cs ++ rest) = some (k, cs.length)) :
    IsLexeme rest k cs
  | string {body : List Char} (h : '"' ∉ body) : IsLexeme rest .string ('"' :: (body ++ ['"']))
  | digits {cs : List Char} (h : IsDigits cs) (hrest : ∀ c ∈ rest.head?, c.isDigit = false)
    (hfraction : fractionLength rest = 0) :
    IsLexeme rest .number cs
  | numeral {cs whole fraction : List Char} (h : IsNumeral cs whole fraction)
    (hrest : ∀ c ∈ rest.head?, c.isDigit = false) :
    IsLexeme rest .number cs
  | word {cs : List Char} (h : isWord cs = true) (hrest : ∀ c ∈ rest.head?, isNameChar c = false) :
    IsLexeme rest (wordKind cs) cs

section

variable {c : Char} {cs ds rest rest' : List Char} {k : Token.Kind} {n : Nat}

theorem isGap_iff_mem :
  isGap c = true ↔ c ∈ [' ', '\t', '\r', '\n']
  := by
  simp [isGap, or_assoc]

/-! ### Symbols -/

/-- Only an equals sign after a character makes a symbol of both. -/
theorem symbol?_of_head?_ne (h : cs.head? ≠ some '=') :
  symbol? (c :: cs) = symbol? [c]
  := by
  unfold symbol?
  split <;> simp_all

/-- What follows an equals sign is no part of a symbol. -/
theorem symbol?_cons_eq (c : Char) (cs : List Char) :
  symbol? (c :: '=' :: cs) = symbol? [c, '=']
  := by
  by_cases hc : c ∈ marks
  · simp only [marks, List.mem_cons, List.not_mem_nil, or_false] at hc
    rcases hc with rfl | rfl | rfl | rfl | rfl | rfl | rfl | rfl | rfl | rfl | rfl
    all_goals rfl
  · rw [symbol?_of_notMem_marks hc, symbol?_of_notMem_marks hc]

/-- A symbol of one character is one by itself. -/
theorem symbol?_single (h : symbol? (c :: rest) = some (k, 1)) :
  symbol? [c] = some (k, 1)
  := by
  unfold symbol? at h
  split at h
  case h_11 => cases h
  all_goals
    next heq =>
      obtain rfl := (List.cons.inj heq).1
      cases h <;> rfl

/-- Whether a symbol starts a text is seen at its first character. -/
theorem symbol?_eq_none_iff (c : Char) (rest : List Char) :
  symbol? (c :: rest) = none ↔ symbol? [c] = none
  := by
  unfold symbol?
  split <;> simp_all

theorem symbol?_length_le {cs : List Char} {k : Token.Kind} {n : Nat}
    (h : symbol? cs = some (k, n)) :
  n ≤ cs.length ∧ n ≤ 2
  := by
  unfold symbol? at h
  split at h <;> cases h <;> simp

/-- A symbol ends before a text that does not go on with an equals sign, or that goes on with one
where it has ended before one. -/
theorem symbol?_before (h : symbol? (cs ++ rest) = some (k, cs.length))
    (hrest : rest'.head? = some '=' → rest.head? = some '=') :
  symbol? (cs ++ rest') = some (k, cs.length)
  := by
  obtain ⟨-, htwo⟩ := symbol?_length_le h
  match cs with
  | [] => cases symbol?_length_pos h
  | [c] =>
    by_cases heq : rest'.head? = some '='
    · obtain ⟨more, rfl⟩ := List.head?_eq_some_iff.mp heq
      obtain ⟨more', rfl⟩ := List.head?_eq_some_iff.mp (hrest heq)
      rw [List.singleton_append, symbol?_cons_eq] at h ⊢
      apply h
    · rw [List.singleton_append, symbol?_of_head?_ne heq]
      apply symbol?_single h
  | [c, d] =>
    by_cases hd : d = '='
    · subst hd
      rw [List.cons_append, List.singleton_append, symbol?_cons_eq] at h ⊢
      apply h
    · rw [List.cons_append, symbol?_of_head?_ne (by simpa using hd)] at h
      exact absurd (symbol?_length_le h).1 (by simp)

/-! ### Numbers -/

/-- A text starts with a fraction, a point and digits, or with none. -/
theorem fractionLength_cases (rest : List Char) :
  fractionLength rest = 0 ∨ ∃ fraction tail, rest = '.' :: (fraction ++ tail) ∧
    IsDigits fraction ∧ ∀ c ∈ tail.head?, c.isDigit = false
  := by
  unfold fractionLength
  split
  · next after =>
    obtain ⟨fraction, tail, rfl, hfraction, htail⟩ := exists_span Char.isDigit after
    rw [takeWhile_append_of_ends hfraction htail]
    cases fraction with
    | nil => exact .inl rfl
    | cons c ds => exact .inr ⟨c :: ds, tail, rfl, ⟨by simp, hfraction⟩, htail⟩
  · exact .inl rfl

theorem fractionLength_append (hdigits : IsDigits ds) (hrest : ∀ c ∈ rest.head?, c.isDigit = false) :
  fractionLength ('.' :: (ds ++ rest)) = ds.length + 1
  := by
  simp only [fractionLength, takeWhile_append_of_ends hdigits.2 hrest, List.isEmpty_iff,
    hdigits.1, if_false]

/-- A number is its first digit, the further digits and a fraction. -/
theorem numberLength_append (hds : ∀ c ∈ ds, c.isDigit = true)
    (hrest : ∀ c ∈ rest.head?, c.isDigit = false) :
  numberLength (ds ++ rest) = 1 + ds.length + fractionLength rest
  := by
  simp only [numberLength, takeWhile_append_of_ends hds hrest, List.drop_left]

/-! ### Tokens at the start of a text -/

theorem shape_of_isDigit (hc : c.isDigit = true) (rest : List Char) :
  shape c rest = .ok (.number, numberLength rest)
  := by
  have hmark := notMem_marks_of_isDigit hc
  simp only [shape, symbol?_of_notMem_marks hmark, ne_quote_of_notMem_marks hmark, hc, if_false,
    if_true]

theorem shape_of_isNameStart (hc : isNameStart c = true) (rest : List Char) :
  shape c rest = .ok (wordKind (c :: rest.takeWhile isNameChar),
    1 + (rest.takeWhile isNameChar).length)
  := by
  have hmark := notMem_marks_of_isNameStart hc
  have hdigit : c.isDigit = false := by
    apply Bool.eq_false_iff.mpr
    intro hdigit
    rw [isNameStart_of_isDigit hdigit] at hc
    cases hc
  simp only [shape, symbol?_of_notMem_marks hmark, ne_quote_of_notMem_marks hmark, hdigit, hc,
    take_word, if_false, if_true, Bool.false_eq_true]

/-- What is spelled as a token before `rest` is found there. -/
theorem shape_of_isLexeme (h : IsLexeme rest k (c :: ds)) :
  shape c (ds ++ rest) = .ok (k, (c :: ds).length)
  := by
  cases h with
  | symbol h =>
    rw [List.cons_append] at h
    simp only [shape, h]
  | @string body h =>
    have hlength : stringLength? (body ++ '"' :: rest) = some (body.length + 2) :=
      stringLength?_eq_some_iff.mpr ⟨body, rest, rfl, h, rfl⟩
    simp [shape, symbol?, hlength]
  | digits h hrest hfraction =>
    obtain ⟨hc, hds⟩ := List.forall_mem_cons.mp h.2
    rw [shape_of_isDigit hc, numberLength_append hds hrest, hfraction, Nat.add_comm 1]
    rfl
  | @numeral _ whole fraction h hrest =>
    obtain ⟨d, whole, rfl⟩ := List.exists_cons_of_ne_nil h.whole.1
    obtain ⟨rfl, rfl⟩ : c = d ∧ ds = whole ++ '.' :: fraction := by
      simpa using h.text
    obtain ⟨hc, hwhole⟩ := List.forall_mem_cons.mp h.whole.2
    rw [shape_of_isDigit hc, List.append_assoc, numberLength_append hwhole (by simp),
      List.cons_append, fractionLength_append h.fraction hrest]
    simp only [List.length_cons, List.length_append]
    congr 2
    omega
  | word h hrest =>
    obtain ⟨hc, hds⟩ : isNameStart c = true ∧ ds.all isNameChar = true := by
      simpa [isWord] using h
    rw [shape_of_isNameStart hc, takeWhile_append_of_ends (List.all_eq_true.mp hds) hrest,
      Nat.add_comm 1]
    rfl

/-- What is found at the start of a text is spelled as a token. -/
theorem exists_isLexeme_of_shape (h : shape c rest = .ok (k, n)) :
  ∃ ds tail, rest = ds ++ tail ∧ n = (c :: ds).length ∧ IsLexeme tail k (c :: ds)
  := by
  cases Shape.of_eq_ok h with
  | symbol h =>
    obtain ⟨m, rfl⟩ := Nat.exists_eq_succ_of_ne_zero (Nat.ne_of_gt (symbol?_length_pos h))
    have hle : m ≤ rest.length := Nat.le_of_succ_le_succ (symbol?_length_le h).1
    have hlength : m + 1 = (c :: rest.take m).length := by simp [hle]
    refine ⟨rest.take m, rest.drop m, (List.take_append_drop m rest).symm, hlength, .symbol ?_⟩
    rw [List.cons_append, List.take_append_drop, ← hlength]
    apply h
  | @string body tail hc hrest hbody =>
    subst hc hrest
    exact ⟨body ++ ['"'], tail, by simp, by simp, .string hbody⟩
  | number hc =>
    obtain ⟨whole, after, rfl, hwhole, hafter⟩ := exists_span Char.isDigit rest
    have hdigits : IsDigits (c :: whole) := ⟨by simp, List.forall_mem_cons.mpr ⟨hc, hwhole⟩⟩
    rw [numberLength_append hwhole hafter]
    rcases fractionLength_cases after with hnone | ⟨fraction, tail, rfl, hfraction, htail⟩
    · refine ⟨whole, after, rfl, ?_, .digits hdigits hafter hnone⟩
      rw [hnone, Nat.add_comm 1]
      rfl
    · refine ⟨whole ++ '.' :: fraction, tail, by simp, ?_, .numeral ⟨rfl, hdigits, hfraction⟩ htail⟩
      rw [fractionLength_append hfraction htail]
      simp only [List.length_cons, List.length_append]
      omega
  | word hc =>
    obtain ⟨ds, tail, rfl, hds, htail⟩ := exists_span isNameChar rest
    rw [takeWhile_append_of_ends hds htail]
    refine ⟨ds, tail, rfl, Nat.add_comm _ _, .word ?_ htail⟩
    rw [isWord, hc, List.all_eq_true.mpr hds]
    rfl

theorem IsLexeme.ne_nil (h : IsLexeme rest k cs) :
  cs ≠ []
  := by
  rintro rfl
  cases h with
  | symbol h => cases symbol?_length_pos h
  | digits h => exact h.1 rfl
  | numeral h => simpa using h.text
  | word h => cases h

/-- Where no token starts, no text goes on with one, or a quote is never closed. -/
theorem shape_eq_error {fault : LexFault} (h : shape c rest = .error fault) :
  (fault = .unexpectedCharacter c ∧ ∀ more, shape c more = .error (.unexpectedCharacter c)) ∨
    fault = .unterminatedString ∧ c = '"' ∧ '"' ∉ rest
  := by
  unfold shape at h
  split at h
  · cases h
  · next hsymbol =>
    split at h
    · next hquote =>
      split at h
      · cases h
      · next hlength =>
        cases h
        refine .inr ⟨rfl, hquote, fun hmem => ?_⟩
        obtain ⟨body, tail, rfl, hbody⟩ := List.eq_append_cons_of_mem hmem
        rw [stringLength?_eq_some_iff.mpr ⟨body, tail, rfl, hbody, rfl⟩] at hlength
        cases hlength
    · next hquote =>
      split at h
      · cases h
      · next hdigit =>
        split at h
        · cases h
        · next hname =>
          cases h
          refine .inl ⟨rfl, fun more => ?_⟩
          have hmore := (symbol?_eq_none_iff c more).mpr ((symbol?_eq_none_iff c rest).mp hsymbol)
          simp only [shape, hmore, hquote, hdigit, hname, if_false, Bool.false_eq_true]

/-! ### Values -/

theorem literalOf_of_ne (hnumber : k ≠ .number) (hstring : k ≠ .string) (cs : List Char) :
  literalOf k cs = .ok none
  := by
  unfold literalOf
  split
  · contradiction
  · contradiction
  · rfl

/-- What is spelled as a number is read. -/
theorem exists_literalOf (h : IsLexeme rest k cs) :
  ∃ literal?, literalOf k cs = .ok literal?
  := by
  cases h with
  | symbol h =>
    obtain ⟨-, hnumber, hstring, -⟩ := symbol?_kind h
    exact ⟨none, literalOf_of_ne hnumber hstring cs⟩
  | string => exact ⟨_, rfl⟩
  | digits h =>
    use some (.float (.ofInt (ofDigits cs)))
    simp only [literalOf, Binary64.read?_of_isDigits h]
  | @numeral _ whole fraction h =>
    obtain ⟨c, ds, hcs⟩ := List.exists_cons_of_ne_nil h.whole.1
    have hsign : readSign cs = (false, cs) := by
      rw [h.text, hcs]
      apply readSign_of_isDigit (h.whole.2 c (by simp [hcs]))
    simp only [literalOf, Binary64.read?_of_isNumeral hsign h]
    exact ⟨_, rfl⟩
  | word =>
    obtain ⟨-, hnumber, hstring⟩ := wordKind_ne cs
    exact ⟨none, literalOf_of_ne hnumber hstring cs⟩

/-! ### What follows a token -/

theorem isNameChar_of_isDigit (h : c.isDigit = true) :
  isNameChar c = true
  := by
  obtain ⟨hlow, hhigh⟩ := toNat_of_isDigit h
  have hnumeric : CharClass.numeric.contains c = true := by
    rw [CharClass.contains, CharClass.numeric, CharClass.inRanges, if_neg (by omega)]
    simpa using hlow
  simp [isNameChar, Text.isWordChar, hnumeric]

/-- Neither white space nor a point starts a token. -/
theorem shape_of_isGap_or_point (hc : isGap c = true ∨ c = '.') (rest : List Char) :
  shape c rest = .error (.unexpectedCharacter c)
  := by
  have hmem : c ∈ [' ', '\t', '\r', '\n'] ++ ['.'] := by
    rwa [List.mem_append, List.mem_singleton, ← isGap_iff_mem]
  have hname : isNameStart c = false := by
    have hall : ([' ', '\t', '\r', '\n'] ++ ['.']).all (fun c => !isNameStart c) = true := by
      decide +kernel
    simpa using List.all_eq_true.mp hall c hmem
  simp only [List.cons_append, List.nil_append, List.mem_cons, List.not_mem_nil, or_false] at hmem
  rcases hmem with rfl | rfl | rfl | rfl | rfl <;> simp [shape, symbol?, hname]

theorem IsLexeme.head (h : IsLexeme rest k (c :: ds)) :
  isGap c = false ∧ c ≠ '.'
  := by
  rw [← Bool.not_eq_true, ← not_or]
  intro hc
  have hshape := shape_of_isLexeme h
  rw [shape_of_isGap_or_point hc] at hshape
  cases hshape

/-- What ends before `rest` ends before `rest'`: the first character of `rest'` is that of `rest`,
or no token goes on with it. -/
def EndsAlike (rest rest' : List Char) : Prop :=
  ∀ c ∈ rest'.head?, c ≠ '.' ∧ (c ∈ rest.head? ∨ c ≠ '=' ∧ isNameChar c = false)

/-- Every token ends before white space. -/
theorem endsAlike_of_isGap (hc : isGap c = true) (cs : List Char) :
  EndsAlike rest (c :: cs)
  := by
  intro d hd
  obtain rfl := Option.some.inj hd
  have hall : [' ', '\t', '\r', '\n'].all
      (fun c => decide (c ≠ '.' ∧ c ≠ '=') && !isNameChar c) = true := by
    decide +kernel
  obtain ⟨⟨hpoint, hequals⟩, hname⟩ : (c ≠ '.' ∧ c ≠ '=') ∧ isNameChar c = false := by
    simpa using List.all_eq_true.mp hall c (isGap_iff_mem.mp hc)
  exact ⟨hpoint, .inr ⟨hequals, hname⟩⟩

/-- What follows a token can be put in the place of something else. -/
theorem IsLexeme.before (h : IsLexeme rest k cs) (hrest : EndsAlike rest rest') :
  IsLexeme rest' k cs
  := by
  have hclass {p : Char → Bool} (hp : ∀ c, p c = true → isNameChar c = true)
      (hends : ∀ c ∈ rest.head?, p c = false) : ∀ c ∈ rest'.head?, p c = false := by
    intro c hc
    rcases (hrest c hc).2 with hsame | ⟨-, hname⟩
    · apply hends c hsame
    · apply Bool.eq_false_iff.mpr
      intro hpc
      rw [hp c hpc] at hname
      cases hname
  cases h with
  | symbol h =>
    apply IsLexeme.symbol (symbol?_before h _)
    intro heq
    rcases (hrest _ heq).2 with hsame | ⟨hne, -⟩
    · apply hsame
    · exact absurd rfl hne
  | string h => exact .string h
  | digits h hends hfraction =>
    apply IsLexeme.digits h (hclass (fun c => isNameChar_of_isDigit) hends)
    rcases fractionLength_cases rest' with hnone | ⟨fraction, tail, rfl, -, -⟩
    · apply hnone
    · exact absurd rfl (hrest '.' rfl).1
  | numeral h hends => exact .numeral h (hclass (fun c => isNameChar_of_isDigit) hends)
  | word h hends => exact .word h (hclass (fun c hc => hc) hends)

end

end TableQuery.Filter
