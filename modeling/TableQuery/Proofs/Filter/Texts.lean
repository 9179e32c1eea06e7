import Mathlib.Data.List.Infix
import TableQuery.Filter.Evaluation

/-!
# The operators on texts

Of two texts an operator sees the folds only, and its test is a relation of lists of characters
(`Operator.Relates`, `Operator.exists_apply_texts`): equality, the order of the characters, or that
one list is a run, a prefix or a suffix of the other.  These relations fit together whatever lists
the texts are folded to, if the fold of two texts in a row is made up of their folds
(`textLaws_of_append`).  So they do under every table of folds (`text_operators_agree`), also where
a character folds to several.
-/

namespace TableQuery

/-- The text with every character folded by a table. -/
def Text.foldWith (table : Char → List Char) (s : String) : List Char :=
  s.toList.flatMap table

theorem Text.foldWith_append (table : Char → List Char) (s t : String) :
  foldWith table (s ++ t) = foldWith table s ++ foldWith table t
  := by
  simp [foldWith]

namespace Filter

/-! ### Relations of folds -/

/-- A search finds exactly the runs of consecutive characters. -/
theorem hasRun_iff_infix {cs ds : List Char} :
  hasRun ds cs = true ↔ ds <:+: cs
  := by
  induction cs with
  | nil => rw [hasRun, List.isEmpty_iff, List.infix_nil]
  | cons c cs ih =>
    rw [hasRun, Bool.or_eq_true, List.isPrefixOf_iff_prefix, ih, List.infix_cons_iff]

/-- A list comes after its prefixes. -/
theorem isGE_compare_of_prefix {cs ds : List Char} (h : ds <+: cs) :
  (compare cs ds).isGE = true
  := by
  obtain ⟨more, rfl⟩ := h
  induction ds with
  | nil => exact List.isGE_compare_nil_right
  | cons d ds ih =>
    rw [List.cons_append, List.compare_cons_cons, Std.compare_self]
    apply ih

/-- The relation of an operator on texts, given by their folds. -/
def Operator.Relates (op : Operator) (cs ds : List Char) : Prop :=
  match op with
  | eq => cs = ds
  | ne => cs ≠ ds
  | lt => (compare cs ds).isLT = true
  | le => (compare cs ds).isLE = true
  | gt => (compare cs ds).isGT = true
  | ge => (compare cs ds).isGE = true
  | contains => ds <:+: cs
  | startsWith => ds <+: cs
  | endsWith => ds <:+ cs

/-- No operator fails on two texts, and it holds of them if it relates their folds. -/
theorem Operator.exists_apply_texts (op : Operator) (s t : String) :
  ∃ b, op.apply (.text s) (.text t) = .ok b ∧ (b = true ↔ op.Relates (Text.fold s) (Text.fold t))
  := by
  cases op with
  | eq => exact ⟨_, rfl, decide_eq_true_iff⟩
  | ne => exact ⟨_, rfl, by simp [Text.sameFold, Relates]⟩
  | lt | le | gt | ge => exact ⟨_, rfl, Iff.rfl⟩
  | contains => exact ⟨_, rfl, hasRun_iff_infix⟩
  | startsWith => exact ⟨_, rfl, List.isPrefixOf_iff_prefix⟩
  | endsWith => exact ⟨_, rfl, List.isSuffixOf_iff_suffix⟩

theorem Operator.apply_texts_iff {op : Operator} {s t : String} :
  op.apply (.text s) (.text t) = .ok true ↔ op.Relates (Text.fold s) (Text.fold t)
  := by
  obtain ⟨b, hb, hrelates⟩ := op.exists_apply_texts s t
  rw [hb, ← hrelates, Except.ok.injEq]

/-! ### Laws -/

/-- How the operators fit together, of which `holds` says that they hold of texts. -/
structure TextLaws (holds : Operator → String → String → Prop) : Prop where
  of_eq : ∀ {x y}, holds .eq x y →
    holds .contains x y ∧ holds .startsWith x y ∧ holds .endsWith x y
  contains_of_end : ∀ {x y}, holds .startsWith x y ∨ holds .endsWith x y → holds .contains x y
  trans : ∀ op ∈ [Operator.contains, .startsWith, .endsWith],
    ∀ {x y z}, holds op x y → holds op y z → holds op x z
  eq_of_contains : ∀ {x y}, holds .contains x y → holds .contains y x → holds .eq x y
  ge_of_startsWith : ∀ {x y}, holds .startsWith x y → holds .ge x y
  contains_append : ∀ p x q, holds .contains (p ++ x ++ q) x
  startsWith_append : ∀ x q, holds .startsWith (x ++ q) x
  endsWith_append : ∀ p x, holds .endsWith (p ++ x) x

/-- The laws hold of texts that are seen as lists of characters, piece by piece. -/
theorem textLaws_of_append {f : String → List Char} (h : ∀ s t, f (s ++ t) = f s ++ f t) :
  TextLaws fun op x y => op.Relates (f x) (f y)
  where
  of_eq {x y} heq := by
    change f x = f y at heq
    change f y <:+: f x ∧ f y <+: f x ∧ f y <:+ f x
    rw [heq]
    exact ⟨List.infix_rfl, List.prefix_rfl, List.suffix_rfl⟩
  contains_of_end h := h.elim List.IsPrefix.isInfix List.IsSuffix.isInfix
  trans op hop x y z hxy hyz := by
    simp only [List.mem_cons, List.not_mem_nil, or_false] at hop
    rcases hop with rfl | rfl | rfl
    · apply List.IsInfix.trans hyz hxy
    · apply List.IsPrefix.trans hyz hxy
    · apply List.IsSuffix.trans hyz hxy
  eq_of_contains hxy hyx := List.infix_antisymm hyx hxy
  ge_of_startsWith h := isGE_compare_of_prefix h
  contains_append p x q := by
    change f x <:+: f (p ++ x ++ q)
    rw [h, h]
    apply List.infix_append
  startsWith_append x q := by
    change f x <+: f (x ++ q)
    rw [h]
    apply List.prefix_append
  endsWith_append p x := by
    change f x <:+ f (p ++ x)
    rw [h]
    apply List.suffix_append

/-- The operators never fail on operands whose values are texts, and hold of them by their folds
alone.  They fit together, and would under every other table of folds. -/
theorem text_operators_agree :
  (∀ (op : Operator) (left right : Expr) (position : Nat) (row : Row) (x y : String),
    left.value row = .ok (.text x) → right.value row = .ok (.text y) →
    ∃ b, (Expr.binary left op position right).holds row = .ok b ∧
      op.apply (.text x) (.text y) = .ok b ∧
      (b = true ↔ op.Relates (Text.foldWith Text.foldChar x) (Text.foldWith Text.foldChar y))) ∧
  TextLaws (fun op x y => op.apply (.text x) (.text y) = .ok true) ∧
  ∀ table : Char → List Char,
    TextLaws fun op x y => op.Relates (Text.foldWith table x) (Text.foldWith table y)
  := by
  have hlaws (table : Char → List Char) :
      TextLaws fun op x y => op.Relates (Text.foldWith table x) (Text.foldWith table y) :=
    textLaws_of_append (Text.foldWith_append table)
  refine ⟨fun op left right position row x y hleft hright => ?_, ?_, hlaws⟩
  · obtain ⟨b, hb, hrelates⟩ := op.exists_apply_texts x y
    refine ⟨b, ?_, hb, hrelates⟩
    simp only [Expr.holds, Expr.value, hleft, hright, hb]
    rfl
  · have hfolds : (fun (op : Operator) x y => op.apply (.text x) (.text y) = .ok true)
        = fun op x y => op.Relates (Text.fold x) (Text.fold y) := by
      funext op x y
      apply propext op.apply_texts_iff
    rw [hfolds]
    apply hlaws Text.foldChar

/-- The sharp s folds to two letters, so a word in capitals may be the end of a longer one. -/
theorem text_operators_agree_of_street :
  Operator.eq.apply (.text "straße") (.text "STRASSE") = .ok true ∧
    Operator.endsWith.apply (.text ("Haupt" ++ "straße")) (.text "STRASSE") = .ok true ∧
    Operator.contains.apply (.text ("Haupt" ++ "straße")) (.text "STRASSE") = .ok true
  := by
  obtain ⟨-, laws, -⟩ := text_operators_agree
  have hequal : Operator.eq.apply (.text "straße") (.text "STRASSE") = .ok true := by
    decide +kernel
  obtain ⟨-, -, hend⟩ := laws.of_eq hequal
  have hends := laws.trans .endsWith (by simp) (laws.endsWith_append "Haupt" "straße") hend
  exact ⟨hequal, hends, laws.contains_of_end (.inr hends)⟩

end Filter

end TableQuery
