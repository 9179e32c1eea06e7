import TableQuery.Proofs.Filter.Acceptance
import TableQuery.Proofs.Filter.Derivations
import TableQuery.Proofs.Filter.Selection

/-!
# Reading what was written

The canonical text of a canonical tree is read as that tree, but for positions.  A tree that was
read from a text is canonical unless it holds an infinity, which is what a run of more than 309
digits reads as: an infinity is written as a name, and a text with a name in its place is never
read as the same tree.
-/

namespace TableQuery.Filter

open TableQuery.Filter.Expr

/-! ### The tokens of trees -/

/-- What holds of the tokens of the leaves, and of all words and symbols that stand for none,
holds of all tokens of a tree. -/
theorem forall_mem_tokens {P : Token → Prop} {e : Expr}
    (hleaves : ∀ leaf ∈ e.leaves, ∀ t ∈ leaf.tokens, P t)
    (hothers : ∀ t : Token, t.kind ≠ .identifier → t.kind ≠ .number → t.kind ≠ .string → P t) :
  ∀ t ∈ e.tokens, P t
  := by
  induction e with
  | binary left op position right ihl ihr =>
    obtain ⟨hleft, hright⟩ := forall_mem_leaves_binary.mp hleaves
    rw [tokens]
    refine List.forall_mem_append.mpr ⟨ihl hleft, List.forall_mem_cons.mpr ⟨?_, ihr hright⟩⟩
    apply hothers <;> cases op <;> decide
  | logical op operands ih =>
    have hoperands := forall_mem_leaves_logical.mp hleaves
    have hmore : ∀ es, (∀ e ∈ es, ∀ t ∈ e.tokens, P t) → ∀ t ∈ moreTokens op es, P t := by
      intro es hes
      induction es with
      | nil => simp [moreTokens]
      | cons e es ih =>
        obtain ⟨he, hes⟩ := List.forall_mem_cons.mp hes
        rw [moreTokens]
        refine List.forall_mem_append.mpr ⟨List.forall_mem_cons.mpr ⟨?_, he⟩, ih hes⟩
        apply hothers <;> cases op <;> decide
    have htokens : ∀ e ∈ operands, ∀ t ∈ e.tokens, P t := fun e he => ih e he (hoperands e he)
    cases operands with
    | nil => simp [tokens]
    | cons e more =>
      obtain ⟨he, hes⟩ := List.forall_mem_cons.mp htokens
      rw [tokens]
      apply List.forall_mem_append.mpr ⟨he, hmore more hes⟩
  | group inner ih =>
    rw [Expr.leaves] at hleaves
    have hparens : ∀ k : Token.Kind, k = .leftParen ∨ k = .rightParen →
        ∀ lexeme, P ⟨k, lexeme, none, 0⟩ := by
      rintro k (rfl | rfl) lexeme <;> apply hothers <;> simp
    rw [tokens]
    refine List.forall_mem_append.mpr ⟨List.forall_mem_cons.mpr ⟨?_, ih hleaves⟩, ?_⟩
    · apply hparens _ (.inl rfl) _
    · apply List.forall_mem_singleton.mpr (hparens _ (.inr rfl) _)
  | literal v => apply hleaves _ (by simp [Expr.leaves])
  | column name position => apply hleaves _ (by simp [Expr.leaves])

/-- What holds of the tokens of literals that can be read, of those of columns, and of all words
and symbols that stand for no leaf, holds of all tokens of a tree with readable leaves. -/
theorem forall_mem_tokens_of_isReadableOver {P : Token → Prop} {e : Expr} {columns : List String}
    (hleaves : ∀ leaf ∈ e.leaves, leaf.isReadableOver columns = true)
    (hliteral : ∀ v, literal v ∈ e.leaves → isReadable v = true → P (literalToken v))
    (hcolumn : ∀ name ∈ columns, P ⟨.identifier, name, none, 0⟩)
    (hothers : ∀ t : Token, t.kind ≠ .identifier → t.kind ≠ .number → t.kind ≠ .string → P t) :
  ∀ t ∈ e.tokens, P t
  := by
  apply forall_mem_tokens _ hothers
  intro leaf hleaf t ht
  have hreadable := hleaves leaf hleaf
  cases leaf with
  | literal v =>
    obtain rfl := List.mem_singleton.mp (by rwa [tokens] at ht)
    apply hliteral v hleaf hreadable
  | column name position =>
    obtain rfl := List.mem_singleton.mp (by rwa [tokens] at ht)
    simp only [isReadableOver, Bool.and_eq_true, List.contains_iff_mem] at hreadable
    apply hcolumn name hreadable.2
  | _ => cases hreadable

/-- The names among the tokens of a tree with finite leaves are its columns. -/
theorem namesIn_tokens {e : Expr} {columns : List String}
    (hleaves : ∀ leaf ∈ e.leaves, leaf.isReadableOver columns = true ∧ leaf.isFinite = true) :
  NamesIn columns e.tokens
  := by
  refine forall_mem_tokens_of_isReadableOver (fun leaf hleaf => (hleaves leaf hleaf).1) ?_ ?_ ?_
  · intro v hv _ hkind
    have hfinite := (hleaves _ hv).2
    cases v with
    | float x =>
      rw [Expr.isFinite] at hfinite
      simp [literalToken, hfinite] at hkind
    | bool b => cases b <;> cases hkind
    | _ => cases hkind
  · exact fun name hname _ => hname
  · exact fun t hname _ _ hkind => absurd hkind hname

/-- The leaves that the tokens of a tree stand for are finite, also where the tree holds an
infinity: its token is a name. -/
theorem standFor_isFinite_tokens {e : Expr} {columns : List String}
    (hleaves : ∀ leaf ∈ e.leaves, leaf.isReadableOver columns = true) :
  StandFor (fun leaf => leaf.isFinite = true) e.tokens
  := by
  refine forall_mem_tokens_of_isReadableOver hleaves ?_ ?_ ?_
  · intro v _ _ d hd
    cases v with
    | float x =>
      by_cases hfinite : x.isFinite = true
      · cases hd <;> simp [literalToken, hfinite, Expr.isFinite]
      · cases hd <;> simp [literalToken, hfinite, Expr.isFinite]
    | _ => cases hd <;> rfl
  · intro name _ d hd
    cases hd <;> rfl
  · intro t _ hnumber hstring d hd
    cases hd with
    | number hk | string hk => contradiction
    | _ => rfl

/-- Names are the same wherever their tokens stand. -/
theorem namesIn_map_unplaced {columns : List String} {ts : List Token} :
  NamesIn columns (ts.map Token.unplaced) ↔ NamesIn columns ts
  := List.forall_mem_map

/-! ### Canonical trees -/

/-- The canonical text of a canonical tree is read as the tree up to positions, if the limit of
depth admits it. -/
theorem parse_text_of_isCanonical {e : Expr} {columns : List String} {p : Policy}
    (he : e.isCanonical columns = true) (hdepth : e.nesting ≤ p.maxDepth.toNat) :
  ∃ tokens e', tokenize e.text = .ok tokens ∧ parse tokens columns p = .ok e' ∧
    e'.unplaced = e.unplaced
  := by
  obtain ⟨hnormal, hleaves⟩ : e.isNormal = true ∧
      ∀ leaf ∈ e.leaves, leaf.isReadableOver columns = true ∧ leaf.isFinite = true := by
    simpa [isCanonical] using he
  obtain ⟨ts, stop, htokens, hts⟩ := tokenize_text hnormal fun leaf h => (hleaves leaf h).1
  obtain ⟨e', hexpression, hunplaced⟩ := (derivesAtLevels hnormal hleaves).expression ts hts
  have hnames : NamesIn columns ts := namesIn_map_unplaced.mp (hts ▸ namesIn_tokens hleaves)
  have hnesting : e'.nesting ≤ p.maxDepth.toNat := by
    rw [← nesting_unplaced, hunplaced, nesting_unplaced]
    apply hdepth
  obtain ⟨c, f, hsteps, rfl⟩ := hexpression.steps (r := rulesOf columns p) hnames hnesting
  exact ⟨_, _, htokens, parse_of_steps hsteps (by simp), hunplaced⟩

/-- The tree of `a < 0.5 AND (b OR null)`. -/
theorem parse_text_of_isCanonical_of_half :
  ∃ e : Expr, e = .logical .and
      [.binary (.column "a" 0) .lt 2 (.literal (.float (Binary64.ofRatio false 1 2))),
       .group (.logical .or [.column "b" 13, .literal .null])] ∧
    ∃ tokens e', tokenize e.text = .ok tokens ∧ parse tokens ["a", "b"] .strict = .ok e' ∧
      e'.unplaced = e.unplaced
  := by
  refine ⟨_, rfl, ?_⟩
  apply parse_text_of_isCanonical
  · decide +kernel
  · decide +kernel

/-! ### Trees that were read -/

/-- The leaves that tokens of a text stand for are readable. -/
theorem standFor_isReadableOver {columns : List String} {ts : List Token}
    (hread : ∀ t ∈ ts, t.IsRead) (hnames : NamesIn columns ts) :
  StandFor (fun leaf => leaf.isReadableOver columns = true) ts
  := by
  intro t ht e he
  have hread := hread t ht
  cases he with
  | number hk =>
    obtain ⟨x, hx, hsign, hnan⟩ := hread.number hk
    simp [isReadableOver, isReadable, hx, hsign, hnan]
  | string hk =>
    obtain ⟨s, hs, hquote⟩ := hread.string hk
    simpa [isReadableOver, isReadable, hs] using hquote
  | name hk => simp [isReadableOver, hread.identifier hk, hnames t ht hk]
  | trueWord | falseWord | nullWord => rfl

/-- A tree that was read from a text is normal, its leaves are readable, and it keeps within the
limit of depth. -/
theorem isNormalOver_of_read {s : String} {columns : List String} {p : Policy} {e : Expr}
    (h : read s columns p = .ok e) :
  e.IsNormalOver (fun leaf => leaf.isReadableOver columns = true) ∧
    e.nesting ≤ p.maxDepth.toNat
  := by
  obtain ⟨tokens, htokens, hparse⟩ := read_eq_ok_iff.mp h
  obtain ⟨body, rest, c, f, hsplit, hsteps, rfl, -⟩ := exists_steps_of_parse hparse
  obtain ⟨hexpression, hdepth⟩ := hsteps.expression
  obtain ⟨all, stop, hall, hread⟩ := (areRead_of_tokenize htokens).ending
  have hbody : ∀ t ∈ body, t.IsRead := by
    intro t ht
    have hmem : t ∈ all ++ [Token.endAt stop] := by
      rw [← hall, hsplit]
      apply List.mem_append_left _ ht
    rcases List.mem_append.mp hmem with hmem | hmem
    · apply hread t hmem
    · have hend := hsteps.isEnd_eq_false t ht
      rw [List.mem_singleton.mp hmem] at hend
      cases hend
  exact ⟨hexpression.isNormal (standFor_isReadableOver hbody hsteps.namesIn), hdepth⟩

/-- What the canonical text of a tree that was read is read as has finite leaves: the text
holds no numeral for an infinity. -/
theorem isFinite_of_parse_text {e e' : Expr} {columns : List String} {p : Policy}
    {tokens : List Token} (he : e.IsNormalOver fun leaf => leaf.isReadableOver columns = true)
    (hp : p.mode = .strict) (htokens : tokenize e.text = .ok tokens)
    (h : parse tokens columns p = .ok e') :
  ∀ leaf ∈ e'.leaves, leaf.isFinite = true
  := by
  obtain ⟨ts, stop, htext, hts⟩ := tokenize_text he.1 he.2
  obtain rfl := Except.ok.inj (htext.symm.trans htokens)
  have htree := standFor_isFinite_tokens he.2
  obtain ⟨hexpression, -⟩ := (parse_eq_ok_iff hp e').mp h
  have hstand : StandFor (fun leaf => leaf.isFinite = true)
      ((ts ++ [Token.endAt stop]).takeWhile Token.isBeforeEnd) := by
    intro t ht d hd
    have hmem : t.unplaced ∈ e.tokens := by
      have hend := List.all_eq_true.mp List.all_takeWhile t ht
      rcases List.mem_append.mp ((List.takeWhile_sublist _).subset ht) with hmem | hmem
      · rw [← hts]
        apply List.mem_map_of_mem hmem
      · rw [List.mem_singleton.mp hmem] at hend
        cases hend
    cases hd with
    | number hk => apply htree t.unplaced hmem _ (.number hk)
    | string hk => apply htree t.unplaced hmem _ (.string hk)
    | _ => rfl
  apply (hexpression.isNormal hstand).2

/-- The canonical text of a tree that was read is read in full as the same tree up to
positions, which holds of the same rows, exactly if the tree holds no infinity. -/
theorem read_text_iff {s : String} {columns : List String} {p : Policy} {e : Expr}
    (h : read s columns p = .ok e) :
  (∃ e', read e.text columns { p with mode := .strict } = .ok e' ∧ e'.unplaced = e.unplaced ∧
      ∀ row, e'.holds row = e.holds row)
    ↔ ∀ x, literal (.float x) ∈ e.leaves → x.isFinite = true
  := by
  obtain ⟨hnormal, hdepth⟩ := isNormalOver_of_read h
  constructor
  · rintro ⟨e', hread, hunplaced, -⟩ x hx
    obtain ⟨tokens, htokens, hparse⟩ := read_eq_ok_iff.mp hread
    have hall := isFinite_of_parse_text hnormal rfl htokens hparse
    have hmem : literal (.float x) ∈ e'.leaves.map unplaced := by
      rw [← leaves_unplaced, hunplaced, leaves_unplaced]
      apply List.mem_map.mpr ⟨_, hx, unplaced_literal _⟩
    obtain ⟨leaf, hleaf, heq⟩ := List.mem_map.mp hmem
    cases leaf with
    | literal v =>
      rw [unplaced_literal] at heq
      cases heq
      apply hall _ hleaf
    | _ => simp at heq
  · intro hfinite
    have hcanonical : e.isCanonical columns = true := by
      simp only [isCanonical, hnormal.1, Bool.true_and, List.all_eq_true, Bool.and_eq_true]
      refine fun leaf hleaf => ⟨hnormal.2 leaf hleaf, ?_⟩
      match leaf with
      | .literal (.float x) => apply hfinite x hleaf
      | .literal .null | .literal (.bool _) | .literal (.int _) | .literal (.text _)
      | .column _ _ | .group _ | .binary _ _ _ _ | .logical _ _ => rfl
    obtain ⟨tokens, e', htokens, hparse, hunplaced⟩ :=
      parse_text_of_isCanonical (p := { p with mode := .strict }) hcanonical hdepth
    exact ⟨e', read_eq_ok_iff.mpr ⟨tokens, htokens, hparse⟩, hunplaced, holds_congr hunplaced⟩

/-- Four hundred nines are read as an infinity, which is not read back. -/
theorem read_text_iff_of_nines :
  ∃ e, read (String.ofList (List.replicate 400 '9')) [] .strict = .ok e ∧
    ¬ ∃ e', read e.text [] .strict = .ok e' ∧ e'.unplaced = e.unplaced ∧
      ∀ row, e'.holds row = e.holds row
  := by
  let infinity : Value := .float (Binary64.ofMagnitude false Binary64.infinite)
  have hscans : Scans ('9' :: List.replicate 399 '9') [] ⟨.number, _, some infinity, 0⟩ :=
    scans_of_shape (by decide) (by decide +kernel) (by decide +kernel)
  obtain ⟨ts, stop, htokens, hts⟩ := hscans.reads.tokenize
  obtain ⟨t, us, rfl, ht, hus⟩ := List.map_eq_cons_iff.mp hts
  obtain rfl := List.map_eq_nil_iff.mp hus
  have hkind : t.kind = .number := congrArg Token.kind ht
  have hliteral : t.literal? = some infinity := congrArg Token.literal? ht
  have hmove : (rulesOf [] .strict).Moves .start t (.read (.literal infinity) (.start 0) []) := by
    have hleaf : Leaf t (.literal infinity) := by
      rw [← Option.getD_some (a := infinity) (b := .null), ← hliteral]
      exact .number hkind
    exact .operand hleaf (namesIn_singleton (by simp [hkind]))
  have hend : ∀ u ∈ [Token.endAt stop].head?, u.isEnd = true := by simp
  have hparse := parse_of_steps hmove.steps hend
  have hread : read (String.ofList (List.replicate 400 '9')) [] .strict
      = .ok (.literal infinity) :=
    read_eq_ok_iff.mpr ⟨_, htokens, hparse⟩
  refine ⟨_, hread, fun hback => ?_⟩
  have hfinite := (read_text_iff hread).mp hback _ List.mem_cons_self
  revert hfinite
  decide +kernel

end TableQuery.Filter
