import TableQuery.Proofs.Filter.Lexemes
import TableQuery.Proofs.Filter.Trees

/-!
# Reading single tokens

`Scans cs rest t` says that the text `cs` is read as the token `t` before `rest`.  What follows a
token decides where it ends; in a canonical text that is a blank, a closing parenthesis or
nothing at all (`IsBoundary`).  Names, the literals that can be read, the operators and the
connectives are read there as they are written.
-/

namespace TableQuery.Filter

/-! ### Kinds and literals as tokens -/

/-- The kind of token that an operator is written as. -/
def Operator.kind : Operator → Token.Kind
  | eq => .equal
  | ne => .notEqual
  | lt => .less
  | le => .lessEqual
  | gt => .greater
  | ge => .greaterEqual
  | contains => .contains
  | startsWith => .startsWith
  | endsWith => .endsWith

theorem Operator.operator?_kind (op : Operator) :
  op.kind.operator? = some op
  := by
  cases op <;> rfl

/-- The kind of token that a connective is written as. -/
def Connective.kind : Connective → Token.Kind
  | and => .and
  | or => .or

/-- The token of a literal, at no particular place.  An infinity is written as a name. -/
def literalToken (v : Value) : Token where
  kind :=
    match v with
    | .null => .nullWord
    | .bool true => .trueWord
    | .bool false => .falseWord
    | .text _ => .string
    | .int _ => .number
    | .float x => if x.isFinite then .number else .identifier
  lexeme := String.ofList (Expr.literalText v)
  literal? :=
    match v with
    | .null | .bool _ | .int _ => none
    | .text s => some (.text s)
    | .float x => if x.isFinite then some (.float x) else none
  position := 0

/-- Whether a value is one that tokens have. -/
def isReadable : Value → Bool
  | .null | .bool _ => true
  | .int _ => false
  | .float x => !x.negative && !x.isNaN
  | .text s => !s.toList.contains '"'

/-! ### A token and what follows it -/

/-- The text `cs` before `rest` is read as the token `t`. -/
def Scans (cs rest : List Char) (t : Token) : Prop :=
  ∃ c ds, cs = c :: ds ∧ isGap c = false ∧
    ∀ position, scan position c (ds ++ rest) = .ok ({ t with position }, cs.length)

theorem scans_of_shape {c : Char} {ds rest : List Char} {kind : Token.Kind}
    {literal? : Option Value} (hgap : isGap c = false)
    (hshape : shape c (ds ++ rest) = .ok (kind, (c :: ds).length))
    (hliteral : literalOf kind (c :: ds) = .ok literal?) :
  Scans (c :: ds) rest ⟨kind, String.ofList (c :: ds), literal?, 0⟩
  := by
  refine ⟨c, ds, rfl, hgap, fun position => ?_⟩
  have hlexeme : (c :: (ds ++ rest)).take (c :: ds).length = c :: ds := by
    rw [← List.cons_append, List.take_append_length]
  simp only [scan, hshape, hlexeme, hliteral]

/-- What is read as a token is spelled as one of its kind, and has its value. -/
theorem scans_iff {cs rest : List Char} {t : Token} :
  Scans cs rest t
    ↔ IsLexeme rest t.kind cs ∧ literalOf t.kind cs = .ok t.literal? ∧ t.lexeme = String.ofList cs
  := by
  constructor
  · rintro ⟨c, ds, rfl, -, hscan⟩
    obtain ⟨hshape, hliteral, hlexeme, -⟩ := scan_eq_ok (hscan 0)
    obtain ⟨ds', tail, hrest, hlength, hlex⟩ := exists_isLexeme_of_shape hshape
    obtain ⟨rfl, rfl⟩ := List.append_inj hrest (by simpa using hlength)
    rw [← List.cons_append, List.take_left] at hliteral hlexeme
    exact ⟨hlex, hliteral, hlexeme⟩
  · rintro ⟨hlex, hliteral, hlexeme⟩
    obtain ⟨c, ds, rfl⟩ := List.exists_cons_of_ne_nil hlex.ne_nil
    refine ⟨c, ds, rfl, hlex.head.1, fun position => ?_⟩
    have htake : (c :: (ds ++ rest)).take (c :: ds).length = c :: ds := by
      rw [← List.cons_append, List.take_left]
    simp only [scan, shape_of_isLexeme hlex, htake, hliteral, hlexeme]

theorem Scans.isRead {cs rest : List Char} {t : Token} (h : Scans cs rest t) :
  t.IsRead
  := by
  obtain ⟨c, ds, rfl, -, hscan⟩ := h
  apply (scan_isRead (hscan t.position)).1

/-- What is read as a token before `rest` is read as it before whatever it can end before. -/
theorem Scans.before {cs rest rest' : List Char} {t : Token} (h : Scans cs rest t)
    (hrest : EndsAlike rest rest') :
  Scans cs rest' t
  := by
  obtain ⟨hlex, hvalue⟩ := scans_iff.mp h
  exact scans_iff.mpr ⟨hlex.before hrest, hvalue⟩

/-- A word ends before what cannot go on in a name. -/
theorem scans_word {cs rest : List Char} (hword : isWord cs = true)
    (hrest : ∀ c ∈ rest.head?, isNameChar c = false) :
  Scans cs rest ⟨wordKind cs, String.ofList cs, none, 0⟩
  := by
  obtain ⟨-, hnumber, hstring⟩ := wordKind_ne cs
  exact scans_iff.mpr ⟨.word hword hrest, literalOf_of_ne hnumber hstring cs, rfl⟩

/-- A string ends with its second quote. -/
theorem scans_string {s : String} (hs : '"' ∉ s.toList) (rest : List Char) :
  Scans ('"' :: s.toList ++ ['"']) rest (literalToken (.text s))
  := by
  apply scans_iff.mpr ⟨.string hs, _, rfl⟩
  simp [literalToken, literalOf]

/-- A number ends before what is no digit. -/
theorem scans_number {x : Binary64} {rest : List Char} (hfinite : x.isFinite = true)
    (hsign : x.negative = false) (hrest : ∀ c ∈ rest.head?, c.isDigit = false) :
  Scans x.plain.toList rest (literalToken (.float x))
  := by
  obtain ⟨cs, whole, fraction, htext, hnumeral, -⟩ := Binary64.isNumeral_plain hfinite
  have hplain : x.plain.toList = cs := by
    simpa [Binary64.signText, hsign] using htext
  have htoken : literalToken (.float x) = ⟨.number, x.plain, some (.float x), 0⟩ := by
    simp [literalToken, hfinite, Expr.literalText, Value.display]
  have hliteral : literalOf .number x.plain.toList = .ok (some (.float x)) := by
    simp only [literalOf, Binary64.read?_plain hfinite]
  rw [htoken]
  apply scans_iff.mpr
  rw [hplain] at hliteral ⊢
  exact ⟨.numeral hnumeral hrest, hliteral, by rw [← hplain, String.ofList_toList]⟩

/-- The text goes on with a blank or a closing parenthesis, or ends. -/
def IsBoundary (rest : List Char) : Prop :=
  ∀ c ∈ rest.head?, c = ' ' ∨ c = ')'

theorem isBoundary_nil :
  IsBoundary []
  := fun _ h => nomatch h

theorem isBoundary_blank (rest : List Char) :
  IsBoundary (' ' :: rest)
  := by
  intro c hc
  exact .inl (Option.some.inj hc).symm

theorem isBoundary_rightParen (rest : List Char) :
  IsBoundary (')' :: rest)
  := by
  intro c hc
  exact .inr (Option.some.inj hc).symm

theorem IsBoundary.isNameChar {rest : List Char} (h : IsBoundary rest) :
  ∀ c ∈ rest.head?, isNameChar c = false
  := by
  intro c hc
  rcases h c hc with rfl | rfl <;> decide +kernel

theorem IsBoundary.isDigit {rest : List Char} (h : IsBoundary rest) :
  ∀ c ∈ rest.head?, c.isDigit = false
  := by
  intro c hc
  rcases h c hc with rfl | rfl <;> rfl

theorem IsBoundary.fractionLength {rest : List Char} (h : IsBoundary rest) :
  fractionLength rest = 0
  := by
  cases rest with
  | nil => rfl
  | cons c rest =>
    rcases h c rfl with rfl | rfl
    all_goals rfl

/-- Every token ends before a boundary. -/
theorem IsBoundary.endsAlike {rest rest' : List Char} (h : IsBoundary rest') :
  EndsAlike rest rest'
  := by
  intro c hc
  have hname := h.isNameChar c hc
  rcases h c hc with rfl | rfl <;> exact ⟨by decide, .inr ⟨by decide, hname⟩⟩

/-- A literal that can be read is read as its token. -/
theorem scans_literal {v : Value} {rest : List Char} (hv : isReadable v = true)
    (hrest : IsBoundary rest) :
  Scans (Expr.literalText v) rest (literalToken v)
  := by
  cases v with
  | null => apply scans_word (by decide +kernel) hrest.isNameChar
  | bool b => cases b <;> exact scans_word (by decide +kernel) hrest.isNameChar
  | int i => cases hv
  | float x =>
    obtain ⟨hsign, hnan⟩ : x.negative = false ∧ x.isNaN = false := by
      simpa [isReadable] using hv
    cases hfinite : x.isFinite with
    | true => apply scans_number hfinite hsign hrest.isDigit
    | false =>
      have hplain : Expr.literalText (.float x) = ['i', 'n', 'f'] := by
        simp [Expr.literalText, Value.display, Binary64.plain, hnan, hfinite,
          Binary64.signText, hsign]
      simp only [literalToken, hfinite, hplain]
      apply scans_word (by decide +kernel) hrest.isNameChar
  | text s =>
    apply scans_string
    simpa [isReadable] using hv

/-- A name is read as itself. -/
theorem scans_name {name : String} {rest : List Char} (hname : isName name = true)
    (hrest : IsBoundary rest) :
  Scans name.toList rest ⟨.identifier, name, none, 0⟩
  := by
  obtain ⟨hword, hkind⟩ : isWord name.toList = true ∧ wordKind name.toList = .identifier := by
    simpa [isName] using hname
  have hscans := scans_word hword hrest.isNameChar
  rwa [hkind, String.ofList_toList] at hscans

/-- An operator before a blank is read as itself. -/
theorem scans_operator (op : Operator) (rest : List Char) :
  Scans op.symbol.toList (' ' :: rest) ⟨op.kind, op.symbol, none, 0⟩
  := by
  cases op with
  | contains | startsWith | endsWith =>
    apply scans_word (by decide +kernel) (isBoundary_blank rest).isNameChar
  | _ => apply scans_of_shape rfl rfl rfl

/-- A connective before a blank is read as itself. -/
theorem scans_connective (op : Connective) (rest : List Char) :
  Scans op.symbol.toList (' ' :: rest) ⟨op.kind, op.symbol, none, 0⟩
  := by
  cases op <;> exact scans_word (by decide +kernel) (isBoundary_blank rest).isNameChar

/-- The token of an opening parenthesis, at no particular place. -/
def leftParen : Token :=
  ⟨.leftParen, "(", none, 0⟩

/-- The token of a closing parenthesis, at no particular place. -/
def rightParen : Token :=
  ⟨.rightParen, ")", none, 0⟩

theorem scans_leftParen (rest : List Char) :
  Scans ['('] rest leftParen
  := scans_of_shape rfl rfl rfl

theorem scans_rightParen (rest : List Char) :
  Scans [')'] rest rightParen
  := scans_of_shape rfl rfl rfl

end TableQuery.Filter
