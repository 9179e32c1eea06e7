import Mathlib.Data.List.Pairwise
import TableQuery.Proofs.Filter.Layout
import TableQuery.Proofs.Filter.Selection
import TableQuery.Proofs.Filter.Acceptance

/-!
# The positions in a tree

The names and the operators of a tree carry the bytes at which they stand in the text.
`Expr.marks` lists them from left to right.  They are those of the tokens from which the tree
derives, in the same order (`Expression.marks_eq`), and a token is spelled as the name or the
operator that it is (`IsLexeme.isSpelling`).  So the positions of a tree that is read are true to
its text (`read_marks`).
-/

namespace TableQuery.Filter

/-- Whether an operator can be written as `word`: as one of its symbols, or as its word in any case
of the ASCII letters. -/
def Operator.isSpelling : Operator → String → Bool
  | eq, word => word = "==" || word = "="
  | ne, word => word = "!=" || word = "!"
  | lt, word => word = "<"
  | le, word => word = "<="
  | gt, word => word = ">"
  | ge, word => word = ">="
  | contains, word => Text.spells "contains" word.toList
  | startsWith, word => Text.spells "startswith" word.toList
  | endsWith, word => Text.spells "endswith" word.toList

/-- A name or an operator, and the byte at which it stands. -/
inductive Mark where
  | column (name : String) (position : Nat)
  | operator (op : Operator) (position : Nat)
  deriving DecidableEq

namespace Mark

/-- The number of bytes before the mark. -/
def position : Mark → Nat
  | column _ position => position
  | operator _ position => position

/-- Whether the mark can be written as `word`.  A name is written in one way. -/
def isSpelling : Mark → String → Bool
  | column name _, word => word = name
  | operator op _, word => op.isSpelling word

/-- A spelling of the mark stands in the text after as many bytes as the mark says. -/
def StandsIn (m : Mark) (s : String) : Prop :=
  ∃ before word after, s = before ++ word ++ after ∧ m.position = before.utf8ByteSize ∧
    m.isSpelling word = true

end Mark

/-! ### The marks of a tree -/

namespace Expr

mutual

/-- The names and the operators of a tree, from left to right. -/
def marks : Expr → List Mark
  | binary left op position right => left.marks ++ .operator op position :: right.marks
  | logical _ operands => marksOfAll operands
  | group inner => inner.marks
  | literal _ => []
  | column name position => [.column name position]

/-- The names and the operators of some trees, from left to right. -/
def marksOfAll : List Expr → List Mark
  | [] => []
  | e :: rest => e.marks ++ marksOfAll rest

end

theorem marksOfAll_eq_flatMap (es : List Expr) :
  marksOfAll es = es.flatMap marks
  := by
  induction es with
  | nil => rfl
  | cons e rest ih => rw [marksOfAll, ih, List.flatMap_cons]

/-- A connective adds no mark to those of its operands. -/
theorem marks_join (op : Connective) (es : List Expr) :
  (join op es).marks = es.flatMap marks
  := by
  match es with
  | [e] => rw [join, List.flatMap_singleton]
  | [] | _ :: _ :: _ =>
    rw [← marksOfAll_eq_flatMap]
    rfl

end Expr

/-! ### The marks of tokens -/

namespace Token

/-- The mark that a token stands for, unless it is a literal, a connective, a parenthesis or the
end. -/
def mark? (t : Token) : Option Mark :=
  if t.kind = .identifier then some (.column t.lexeme t.position)
  else t.kind.operator?.map fun op => .operator op t.position

variable {t : Token} {m : Mark} {op : Operator}

theorem mark?_of_identifier (h : t.kind = .identifier) :
  t.mark? = some (.column t.lexeme t.position)
  := if_pos h

theorem mark?_of_operator? (h : t.kind.operator? = some op) :
  t.mark? = some (.operator op t.position)
  := by
  have hname : t.kind ≠ .identifier := by
    intro hk
    rw [hk] at h
    cases h
  rw [mark?, if_neg hname, h, Option.map_some]

theorem mark?_eq_none {k : Kind} (h : t.kind = k) (hname : k ≠ .identifier)
    (hop : k.operator? = none) :
  t.mark? = none
  := by
  rw [mark?, h, if_neg hname, hop, Option.map_none]

/-- A token has a mark if it is a name or an operator. -/
theorem mark?_eq_some_iff :
  t.mark? = some m
    ↔ t.kind = .identifier ∧ m = .column t.lexeme t.position ∨
      ∃ op, t.kind.operator? = some op ∧ m = .operator op t.position
  := by
  by_cases hname : t.kind = .identifier
  · simp [mark?, hname, Kind.operator?, eq_comm]
  · simp [mark?, hname, eq_comm]

theorem position_of_mark? (h : t.mark? = some m) :
  m.position = t.position
  := by
  obtain ⟨-, rfl⟩ | ⟨op, -, rfl⟩ := mark?_eq_some_iff.mp h
  · rfl
  · rfl

end Token

/-! ### Derivations -/

theorem Leaf.marks_eq {t : Token} {e : Expr} (h : Leaf t e) :
  e.marks = [t].filterMap Token.mark?
  := by
  cases h with
  | name ht => simp [Token.mark?_of_identifier ht, Expr.marks]
  | number ht | string ht | trueWord ht | falseWord ht | nullWord ht =>
    have hnone : t.mark? = none := Token.mark?_eq_none ht nofun rfl
    simp [hnone, Expr.marks]

mutual

/-- The marks of an operand are those of its tokens. -/
theorem Operand.marks_eq {ts : List Token} {e : Expr} (h : Operand ts e) :
  e.marks = ts.filterMap Token.mark?
  := by
  match h with
  | .leaf h => apply h.marks_eq
  | @Operand.group l r ts es hl h hr =>
    have hleft : l.mark? = none := Token.mark?_eq_none hl nofun rfl
    have hright : r.mark? = none := Token.mark?_eq_none hr nofun rfl
    rw [Expr.marks, Expr.marks_join, h.marks_eq]
    simp [hleft, hright]

/-- The marks of a chain of comparisons are those of its tokens. -/
theorem Comparison.marks_eq {ts : List Token} {e : Expr} (h : Comparison ts e) :
  e.marks = ts.filterMap Token.mark?
  := by
  match h with
  | .operand h => apply h.marks_eq
  | .operator h ht hu =>
    rw [Expr.marks, h.marks_eq, hu.marks_eq, List.filterMap_append,
      List.filterMap_cons_some (Token.mark?_of_operator? ht)]

/-- The marks of conjoined comparisons are those of the tokens. -/
theorem Conjunction.marks_eq {ts : List Token} {es : List Expr} (h : Conjunction ts es) :
  es.flatMap Expr.marks = ts.filterMap Token.mark?
  := by
  match h with
  | .comparison h => rw [List.flatMap_singleton, h.marks_eq]
  | @Conjunction.and _ _ t _ _ h ht hu =>
    have hand : t.mark? = none := Token.mark?_eq_none ht nofun rfl
    rw [List.flatMap_append, List.flatMap_singleton, h.marks_eq, hu.marks_eq,
      List.filterMap_append, List.filterMap_cons_none hand]

/-- The marks of disjoined conjunctions are those of the tokens. -/
theorem Disjunction.marks_eq {ts : List Token} {es : List Expr} (h : Disjunction ts es) :
  es.flatMap Expr.marks = ts.filterMap Token.mark?
  := by
  match h with
  | .conjunction h => rw [List.flatMap_singleton, Expr.marks_join, h.marks_eq]
  | @Disjunction.or _ _ t _ _ h ht hu =>
    have hor : t.mark? = none := Token.mark?_eq_none ht nofun rfl
    rw [List.flatMap_append, List.flatMap_singleton, Expr.marks_join, h.marks_eq, hu.marks_eq,
      List.filterMap_append, List.filterMap_cons_none hor]

end

/-- The names and the operators of a tree are those of the tokens from which it derives. -/
theorem Expression.marks_eq {ts : List Token} {e : Expr} (h : Expression ts e) :
  e.marks = ts.filterMap Token.mark?
  := by
  obtain ⟨es, h, rfl⟩ := h
  rw [Expr.marks_join, h.marks_eq]

/-! ### Spellings -/

/-- The symbol of an operator at the start of a text is one of its spellings. -/
theorem symbol?_isSpelling {cs : List Char} {k : Token.Kind} {n : Nat} {op : Operator}
    (h : symbol? cs = some (k, n)) (hop : k.operator? = some op) :
  op.isSpelling (String.ofList (cs.take n)) = true
  := by
  unfold symbol? at h
  split at h <;> cases h <;> cases hop <;> rfl

/-- A word that is an operator is its word in some case. -/
theorem wordKind_isSpelling {cs : List Char} {op : Operator}
    (h : (wordKind cs).operator? = some op) :
  op.isSpelling (String.ofList cs) = true
  := by
  unfold wordKind at h
  repeat' split at h
  all_goals cases h
  all_goals
    next hword =>
      rw [Operator.isSpelling, String.toList_ofList]
      apply hword

/-- What is read as an operator is one of its spellings. -/
theorem IsLexeme.isSpelling {rest cs : List Char} {k : Token.Kind} {op : Operator}
    (h : IsLexeme rest k cs) (hop : k.operator? = some op) :
  op.isSpelling (String.ofList cs) = true
  := by
  cases h with
  | symbol h =>
    have hspelling := symbol?_isSpelling h hop
    rwa [List.take_left] at hspelling
  | string | digits | numeral => cases hop
  | word => apply wordKind_isSpelling hop

/-- The mark of a token is spelled as the token. -/
theorem Scans.isSpelling {cs rest : List Char} {t : Token} {m : Mark} (h : Scans cs rest t)
    (hm : t.mark? = some m) :
  m.isSpelling t.lexeme = true
  := by
  obtain ⟨hlex, -, hlexeme⟩ := scans_iff.mp h
  obtain ⟨-, rfl⟩ | ⟨op, hop, rfl⟩ := Token.mark?_eq_some_iff.mp hm
  · apply decide_eq_true rfl
  · rw [hlexeme]
    apply hlex.isSpelling hop

/-! ### Texts -/

/-- The marks of the tokens of a text stand in it. -/
theorem standsIn_of_tokenize {s : String} {tokens : List Token} (h : tokenize s = .ok tokens)
    {t : Token} (ht : t ∈ tokens) {m : Mark} (hm : t.mark? = some m) :
  m.StandsIn s
  := by
  obtain ⟨body, rfl, hlexes⟩ := tokenize_eq_ok_iff_lexes.mp h
  rcases List.mem_append.mp ht with hbody | hend
  · obtain ⟨cs, rest, hscans⟩ := hlexes.exists_scans t hbody
    have hspaced : Spaced 0 s (body ++ [.endAt s.utf8ByteSize]) := by
      simpa using hlexes.spaced
    obtain ⟨before, after, hs, hposition⟩ := hspaced.standsIn "" rfl t ht
    refine ⟨before, t.lexeme, after, ?_, ?_, hscans.isSpelling hm⟩
    · rw [← hs, String.empty_append]
    · rw [Token.position_of_mark? hm, hposition]
  · rw [List.mem_singleton.mp hend] at hm
    cases hm

/-- The marks of the tokens of a text stand one after the other. -/
theorem pairwise_marks_of_tokenize {s : String} {tokens : List Token}
    (h : tokenize s = .ok tokens) :
  (tokens.filterMap Token.mark?).Pairwise fun m n => m.position < n.position
  := by
  apply List.pairwise_filterMap.mpr
  apply (areRead_of_tokenize h).positions.imp
  intro t u hlt m hm n hn
  rwa [Token.position_of_mark? hm, Token.position_of_mark? hn]

/-- The positions of a tree that is read from a text are true to the text: where a name or an
operator says that it stands, the text goes on with the name or with a spelling of the operator,
and the positions increase from left to right. -/
theorem read_marks {s : String} {columns : List String} {p : Policy} {e : Expr}
    (h : read s columns p = .ok e) :
  (∀ m ∈ e.marks, m.StandsIn s) ∧ e.marks.Pairwise fun m n => m.position < n.position
  := by
  obtain ⟨tokens, htokens, hparse⟩ := read_eq_ok_iff.mp h
  obtain ⟨body, rest, c, f, rfl, hsteps, rfl, -⟩ := exists_steps_of_parse hparse
  rw [hsteps.expression.1.marks_eq]
  constructor
  · intro m hm
    obtain ⟨t, ht, hm⟩ := List.mem_filterMap.mp hm
    apply standsIn_of_tokenize htokens (List.mem_append_left rest ht) hm
  · have hpairwise := pairwise_marks_of_tokenize htokens
    rw [List.filterMap_append] at hpairwise
    apply (List.pairwise_append.mp hpairwise).1

/-- The positions count bytes, and a name after the end of the filter has no mark. -/
theorem read_marks_of_umlauts :
  ∃ e, read "größe >= 1 AND (b CONTAINS \"ß\") b" ["größe", "b"] .lenient = .ok e ∧
    e.marks = [.column "größe" 0, .operator .ge 8, .column "b" 18, .operator .contains 20] ∧
    (∀ m ∈ e.marks, m.StandsIn "größe >= 1 AND (b CONTAINS \"ß\") b") ∧
    e.marks.Pairwise fun m n => m.position < n.position
  := by
  have htokens : tokenize "größe >= 1 AND (b CONTAINS \"ß\") b" = .ok
      [⟨.identifier, "größe", none, 0⟩, ⟨.greaterEqual, ">=", none, 8⟩,
       ⟨.number, "1", some (.float (.ofInt 1)), 11⟩, ⟨.and, "AND", none, 13⟩,
       ⟨.leftParen, "(", none, 17⟩, ⟨.identifier, "b", none, 18⟩,
       ⟨.contains, "CONTAINS", none, 20⟩, ⟨.string, "\"ß\"", some (.text "ß"), 29⟩,
       ⟨.rightParen, ")", none, 33⟩, ⟨.identifier, "b", none, 35⟩, .endAt 36] := by
    decide +kernel
  have hread : ∃ e, read "größe >= 1 AND (b CONTAINS \"ß\") b" ["größe", "b"] .lenient = .ok e ∧
      e.marks = [.column "größe" 0, .operator .ge 8, .column "b" 18, .operator .contains 20] :=
    ⟨_, read_eq_ok_iff.mpr ⟨_, htokens, rfl⟩, rfl⟩
  obtain ⟨e, he, hmarks⟩ := hread
  exact ⟨e, he, hmarks, read_marks he⟩

end TableQuery.Filter
