import TableQuery.Proofs.Filter.Rendering

/-!
# Derivations of trees and trees of derivations

The tree of a derivation is normal, and its leaves are those that its tokens stand for
(`Expression.isNormal`).  Conversely the tokens of a canonical tree derive a tree that is the
same up to positions (`Expr.expression_of_tokens`): each part of the tree derives at the level
of the grammar that its place asks for, and at every level above it.
-/

namespace TableQuery.Filter

open TableQuery.Filter.Expr

/-! ### The trees of derivations -/

/-- A run of AND, or a single comparison, can stand in a run of OR. -/
theorem isPartOf_or_of_isChain {e : Expr} (h : e.isChain = true) :
  e.isPartOf .or = true
  := by
  cases e with
  | logical => cases h
  | _ => rfl

theorem isPartOf_or_join_and {es : List Expr} (h : ∀ e ∈ es, e.isChain = true) :
  (join .and es).isPartOf .or = true
  := by
  match es with
  | [e] => apply isPartOf_or_of_isChain (h e List.mem_cons_self)
  | [] | _ :: _ :: _ => rfl

theorem isChain_of_isOperand {e : Expr} (h : e.isOperand = true) :
  e.isChain = true
  := by
  cases e with
  | binary | logical => cases h
  | _ => rfl

/-- The tree is normal, and its leaves have the property. -/
def Expr.IsNormalOver (P : Expr → Prop) (e : Expr) : Prop :=
  e.isNormal = true ∧ ∀ leaf ∈ e.leaves, P leaf

theorem isNormalOver_join {P : Expr → Prop} {op : Connective} {es : List Expr} (hne : es ≠ [])
    (h : ∀ e ∈ es, e.isPartOf op = true ∧ e.IsNormalOver P) :
  (join op es).IsNormalOver P
  := by
  constructor
  · apply isNormal_join hne fun e he => ⟨(h e he).1, (h e he).2.1⟩
  · apply forall_mem_leaves_join.mpr fun e he => (h e he).2.2

/-- The leaves that the tokens stand for have the property. -/
def StandFor (P : Expr → Prop) (ts : List Token) : Prop :=
  ∀ t ∈ ts, ∀ e, Leaf t e → P e

theorem standFor_append {P : Expr → Prop} {ts us : List Token} :
  StandFor P (ts ++ us) ↔ StandFor P ts ∧ StandFor P us
  := List.forall_mem_append

theorem standFor_cons {P : Expr → Prop} {t : Token} {ts : List Token} :
  StandFor P (t :: ts) ↔ (∀ e, Leaf t e → P e) ∧ StandFor P ts
  := List.forall_mem_cons

theorem Leaf.isLeaf {t : Token} {e : Expr} (h : Leaf t e) :
  e.isOperand = true ∧ e.isNormal = true ∧ e.leaves = [e]
  := by
  cases h <;> simp [isOperand, Expr.isNormal, leaves]

theorem Conjunction.es_ne_nil {ts : List Token} {es : List Expr} (h : Conjunction ts es) :
  es ≠ []
  := by
  cases h <;> simp

theorem Disjunction.es_ne_nil {ts : List Token} {es : List Expr} (h : Disjunction ts es) :
  es ≠ []
  := by
  cases h <;> simp

section

variable {P : Expr → Prop}

mutual

theorem Operand.isNormal {ts : List Token} {e : Expr} (h : Operand ts e) (hts : StandFor P ts) :
  e.isOperand = true ∧ e.IsNormalOver P
  := by
  match h with
  | .leaf h =>
    obtain ⟨hoperand, hnormal, hleaves⟩ := h.isLeaf
    refine ⟨hoperand, hnormal, ?_⟩
    rw [hleaves]
    apply List.forall_mem_singleton.mpr (hts _ List.mem_cons_self _ h)
  | @Operand.group _ _ ts es _ h _ =>
    have hbody := (standFor_append.mp (standFor_cons.mp hts).2).1
    obtain ⟨hnormal, hleaves⟩ := isNormalOver_join h.es_ne_nil (h.isNormal hbody)
    exact ⟨rfl, by rwa [Expr.isNormal], by rwa [Expr.leaves]⟩

theorem Comparison.isNormal {ts : List Token} {e : Expr} (h : Comparison ts e)
    (hts : StandFor P ts) :
  e.isChain = true ∧ e.IsNormalOver P
  := by
  match h with
  | .operand h =>
    obtain ⟨hoperand, hnormal⟩ := h.isNormal hts
    exact ⟨isChain_of_isOperand hoperand, hnormal⟩
  | .operator h ht hu =>
    obtain ⟨hleft, hright⟩ := standFor_append.mp hts
    obtain ⟨hchain, hlnormal, hlleaves⟩ := h.isNormal hleft
    obtain ⟨hoperand, hrnormal, hrleaves⟩ := hu.isNormal (standFor_cons.mp hright).2
    refine ⟨rfl, ?_, forall_mem_leaves_binary.mpr ⟨hlleaves, hrleaves⟩⟩
    apply isNormal_binary_iff.mpr ⟨hchain, hoperand, hlnormal, hrnormal⟩

theorem Conjunction.isNormal {ts : List Token} {es : List Expr} (h : Conjunction ts es)
    (hts : StandFor P ts) :
  ∀ e ∈ es, e.isPartOf .and = true ∧ e.IsNormalOver P
  := by
  match h with
  | .comparison h =>
    intro e he
    rw [List.mem_singleton.mp he]
    apply h.isNormal hts
  | .and h ht hu =>
    obtain ⟨hleft, hright⟩ := standFor_append.mp hts
    refine List.forall_mem_append.mpr ⟨h.isNormal hleft, fun e he => ?_⟩
    rw [List.mem_singleton.mp he]
    apply hu.isNormal (standFor_cons.mp hright).2

theorem Disjunction.isNormal {ts : List Token} {es : List Expr} (h : Disjunction ts es)
    (hts : StandFor P ts) :
  ∀ e ∈ es, e.isPartOf .or = true ∧ e.IsNormalOver P
  := by
  match h with
  | .conjunction h =>
    intro e he
    have hparts := h.isNormal hts
    rw [List.mem_singleton.mp he]
    exact ⟨isPartOf_or_join_and fun e he => (hparts e he).1,
      isNormalOver_join h.es_ne_nil hparts⟩
  | .or h ht hu =>
    obtain ⟨hleft, hright⟩ := standFor_append.mp hts
    have hparts := hu.isNormal (standFor_cons.mp hright).2
    refine List.forall_mem_append.mpr ⟨h.isNormal hleft, fun e he => ?_⟩
    rw [List.mem_singleton.mp he]
    exact ⟨isPartOf_or_join_and fun e he => (hparts e he).1,
      isNormalOver_join hu.es_ne_nil hparts⟩

end

/-- The tree of a derivation is normal, and its leaves are among those that its tokens stand
for. -/
theorem Expression.isNormal {ts : List Token} {e : Expr} (h : Expression ts e)
    (hts : StandFor P ts) :
  e.IsNormalOver P
  := by
  obtain ⟨es, hes, rfl⟩ := h
  apply isNormalOver_join hes.es_ne_nil (hes.isNormal hts)

end

/-! ### The derivations of trees -/

/-- The tokens `ts` derive a run of AND, or a comparison, and `e` is its tree. -/
def Conjoined (ts : List Token) (e : Expr) : Prop :=
  ∃ es, Conjunction ts es ∧ e = join .and es

/-- The tokens of the tree `e`, wherever they stand, derive the tree up to positions. -/
def Spells (phrase : List Token → Expr → Prop) (e : Expr) : Prop :=
  ∀ ts, ts.map Token.unplaced = e.tokens → ∃ d, phrase ts d ∧ d.unplaced = e.unplaced

theorem Spells.mono {phrase phrase' : List Token → Expr → Prop} {e : Expr}
    (h : Spells phrase e) (hphrase : ∀ ts d, phrase ts d → phrase' ts d) :
  Spells phrase' e
  := by
  intro ts hts
  obtain ⟨d, hd, hunplaced⟩ := h ts hts
  exact ⟨d, hphrase ts d hd, hunplaced⟩

theorem Conjoined.of_comparison {ts : List Token} {e : Expr} (h : Comparison ts e) :
  Conjoined ts e
  := ⟨[e], .comparison h, rfl⟩

theorem Expression.of_conjoined {ts : List Token} {e : Expr} (h : Conjoined ts e) :
  Expression ts e
  := by
  obtain ⟨es, hes, rfl⟩ := h
  exact ⟨[join .and es], .conjunction hes, rfl⟩

/-- A tree derives at each level of the grammar at which its shape lets it stand. -/
structure DerivesAtLevels (e : Expr) : Prop where
  operand : e.isOperand = true → Spells Operand e
  chain : e.isChain = true → Spells Comparison e
  conjunction : e.isPartOf .or = true → Spells Conjoined e
  expression : Spells Expression e

theorem DerivesAtLevels.of_expression {e : Expr} (he : e.isPartOf .or = false)
    (h : Spells Expression e) :
  DerivesAtLevels e
  := by
  have hchain : e.isChain = false := by
    apply Bool.eq_false_iff.mpr
    intro hchain
    rw [isPartOf_or_of_isChain hchain] at he
    cases he
  constructor
  · intro hoperand
    rw [isChain_of_isOperand hoperand] at hchain
    cases hchain
  · exact fun h => absurd h (by simp [hchain])
  · exact fun h => absurd h (by simp [he])
  · apply h

theorem DerivesAtLevels.of_conjoined {e : Expr} (he : e.isChain = false)
    (h : Spells Conjoined e) :
  DerivesAtLevels e
  := by
  constructor
  · intro hoperand
    rw [isChain_of_isOperand hoperand] at he
    cases he
  · exact fun h => absurd h (by simp [he])
  · exact fun _ => h
  · apply h.mono fun _ _ => .of_conjoined

theorem DerivesAtLevels.of_comparison {e : Expr} (he : e.isOperand = false)
    (h : Spells Comparison e) :
  DerivesAtLevels e
  where
  operand hoperand := absurd hoperand (by simp [he])
  chain _ := h
  conjunction _ := h.mono fun _ _ => .of_comparison
  expression := h.mono fun _ _ hd => .of_conjoined (.of_comparison hd)

theorem DerivesAtLevels.of_operand {e : Expr} (h : Spells Operand e) :
  DerivesAtLevels e
  where
  operand _ := h
  chain _ := h.mono fun _ _ => .operand
  conjunction _ := h.mono fun _ _ hd => .of_comparison (.operand hd)
  expression := h.mono fun _ _ hd => .of_conjoined (.of_comparison (.operand hd))

/-- The phrases of the grammar that are runs of parts with the connective `op` between them. -/
structure IsRun (op : Connective) (part : List Token → Expr → Prop)
    (phrase : List Token → List Expr → Prop) : Prop where
  single : ∀ {us d}, part us d → phrase us [d]
  more : ∀ {ts t us ds d}, phrase ts ds → t.kind = op.kind → part us d →
    phrase (ts ++ t :: us) (ds ++ [d])

theorem isRun_and :
  IsRun .and Comparison Conjunction
  := ⟨.comparison, .and⟩

theorem isRun_or :
  IsRun .or Conjoined Disjunction
  where
  single := by
    rintro us d ⟨es, hes, rfl⟩
    exact .conjunction hes
  more := by
    rintro ts t us ds d h ht ⟨es, hes, rfl⟩
    exact .or h ht hes

namespace IsRun

variable {op : Connective} {part : List Token → Expr → Prop}
  {phrase : List Token → List Expr → Prop}

/-- The tokens of further operands extend a run by them. -/
theorem extend (hrun : IsRun op part phrase) {es ds : List Expr} {ts us : List Token}
    (hes : ∀ e ∈ es, Spells part e) (h : phrase ts ds)
    (hus : us.map Token.unplaced = moreTokens op es) :
  ∃ ds', phrase (ts ++ us) (ds ++ ds') ∧ ds'.map unplaced = es.map unplaced
  := by
  induction es generalizing ds ts us with
  | nil =>
    obtain rfl : us = [] := by simpa [moreTokens] using hus
    refine ⟨[], ?_, rfl⟩
    rwa [List.append_nil, List.append_nil]
  | cons e es ih =>
    rw [moreTokens, List.cons_append] at hus
    obtain ⟨t, us, rfl, ht, hus⟩ := List.map_eq_cons_iff.mp hus
    obtain ⟨us, vs, rfl, hus, hvs⟩ := List.map_eq_append_iff.mp hus
    obtain ⟨he, hes⟩ := List.forall_mem_cons.mp hes
    obtain ⟨d, hd, hunplaced⟩ := he us hus
    have hkind : t.kind = op.kind := congrArg Token.kind ht
    obtain ⟨ds', hall, hds'⟩ := ih hes (hrun.more h hkind hd) hvs
    rw [List.append_assoc, List.append_assoc] at hall
    refine ⟨d :: ds', hall, ?_⟩
    rw [List.map_cons, List.map_cons, hunplaced, hds']

/-- The tokens of a run of two operands or more derive the run. -/
theorem spells (hrun : IsRun op part phrase) {es : List Expr} (hlength : 2 ≤ es.length)
    (hes : ∀ e ∈ es, Spells part e) :
  Spells (fun ts d => ∃ ds, phrase ts ds ∧ d = join op ds) (logical op es)
  := by
  intro ts hts
  match es with
  | [] | [_] => simp at hlength
  | e :: e' :: more =>
    rw [tokens] at hts
    obtain ⟨us, vs, rfl, hus, hvs⟩ := List.map_eq_append_iff.mp hts
    obtain ⟨he, hmore⟩ := List.forall_mem_cons.mp hes
    obtain ⟨d, hd, hunplaced⟩ := he us hus
    obtain ⟨ds, hall, hds⟩ := hrun.extend hmore (hrun.single hd) hvs
    refine ⟨join op ([d] ++ ds), ⟨_, hall, rfl⟩, ?_⟩
    rw [unplaced_join, unplaced_logical, List.map_append, hds, List.map_singleton, hunplaced]
    rfl

end IsRun

/-- The token of a finite literal stands for it. -/
theorem spells_literal {v : Value} (hv : isReadable v = true)
    (hfinite : (literal v).isFinite = true) :
  Spells Operand (literal v)
  := by
  intro ts hts
  rw [tokens] at hts
  obtain ⟨t, us, rfl, ht, hus⟩ := List.map_eq_cons_iff.mp hts
  obtain rfl := List.map_eq_nil_iff.mp hus
  have hkind : t.kind = (literalToken v).kind := by rw [← ht]; rfl
  have hliteral : t.literal? = (literalToken v).literal? := by rw [← ht]; rfl
  cases v with
  | null => exact ⟨_, .leaf (.nullWord hkind), rfl⟩
  | bool b =>
    cases b with
    | true => exact ⟨_, .leaf (.trueWord hkind), rfl⟩
    | false => exact ⟨_, .leaf (.falseWord hkind), rfl⟩
  | int i => cases hv
  | float x =>
    rw [Expr.isFinite] at hfinite
    simp only [literalToken, hfinite] at hkind hliteral
    refine ⟨_, .leaf (.number hkind), ?_⟩
    rw [hliteral]
    rfl
  | text s =>
    refine ⟨_, .leaf (.string hkind), ?_⟩
    rw [hliteral]
    rfl

/-- A normal tree with finite leaves derives from its tokens at every level at which it can
stand. -/
theorem derivesAtLevels {e : Expr} {columns : List String} (hnormal : e.isNormal = true)
    (hleaves : ∀ leaf ∈ e.leaves, leaf.isReadableOver columns = true ∧ leaf.isFinite = true) :
  DerivesAtLevels e
  := by
  induction e with
  | binary left op position right ihl ihr =>
    obtain ⟨hchain, hoperand, hleft, hright⟩ := isNormal_binary_iff.mp hnormal
    obtain ⟨hlleaves, hrleaves⟩ := forall_mem_leaves_binary.mp hleaves
    refine .of_comparison rfl fun ts hts => ?_
    rw [tokens] at hts
    obtain ⟨us, vs, rfl, hus, hvs⟩ := List.map_eq_append_iff.mp hts
    obtain ⟨t, vs, rfl, ht, hvs⟩ := List.map_eq_cons_iff.mp hvs
    obtain ⟨d, hd, hdunplaced⟩ := (ihl hleft hlleaves).chain hchain us hus
    obtain ⟨d', hd', hdunplaced'⟩ := (ihr hright hrleaves).operand hoperand vs hvs
    have hkind : t.kind = op.kind := congrArg Token.kind ht
    have hop : t.kind.operator? = some op := by rw [hkind, op.operator?_kind]
    refine ⟨_, .operator hd hop hd', ?_⟩
    rw [unplaced_binary, unplaced_binary, hdunplaced, hdunplaced']
  | logical op operands ih =>
    obtain ⟨hlength, hoperands⟩ := isNormal_logical_iff.mp hnormal
    have hlevels : ∀ e ∈ operands, DerivesAtLevels e := fun e he =>
      ih e he (hoperands e he).2 (forall_mem_leaves_logical.mp hleaves e he)
    cases op with
    | and =>
      exact .of_conjoined rfl (isRun_and.spells hlength
        fun e he => (hlevels e he).chain (hoperands e he).1)
    | or =>
      exact .of_expression rfl (isRun_or.spells hlength
        fun e he => (hlevels e he).conjunction (hoperands e he).1)
  | group inner ih =>
    rw [Expr.isNormal] at hnormal
    rw [Expr.leaves] at hleaves
    refine .of_operand fun ts hts => ?_
    rw [tokens, List.cons_append] at hts
    obtain ⟨l, ts, rfl, hl, hts⟩ := List.map_eq_cons_iff.mp hts
    obtain ⟨us, vs, rfl, hus, hvs⟩ := List.map_eq_append_iff.mp hts
    obtain ⟨r, vs, rfl, hr, hvs⟩ := List.map_eq_cons_iff.mp hvs
    obtain rfl := List.map_eq_nil_iff.mp hvs
    obtain ⟨_, ⟨es, hes, rfl⟩, hunplaced⟩ := (ih hnormal hleaves).expression us hus
    have hlkind : l.kind = .leftParen := congrArg Token.kind hl
    have hrkind : r.kind = .rightParen := congrArg Token.kind hr
    refine ⟨_, .group hlkind hes hrkind, ?_⟩
    rw [unplaced_group, unplaced_group, hunplaced]
  | literal v =>
    rw [Expr.leaves] at hleaves
    obtain ⟨hv, hfinite⟩ := hleaves _ List.mem_cons_self
    exact .of_operand (spells_literal hv hfinite)
  | column name position =>
    refine .of_operand fun ts hts => ?_
    rw [tokens] at hts
    obtain ⟨t, us, rfl, ht, hus⟩ := List.map_eq_cons_iff.mp hts
    obtain rfl := List.map_eq_nil_iff.mp hus
    have hkind : t.kind = .identifier := congrArg Token.kind ht
    have hlexeme : t.lexeme = name := congrArg Token.lexeme ht
    refine ⟨_, .leaf (.name hkind), ?_⟩
    rw [unplaced_column, unplaced_column, hlexeme]

end TableQuery.Filter
