import TableQuery.Proofs.Filter.Lexing

/-!
# Reading canonical texts

The canonical text of a tree is read as the tokens of the tree, `Expr.tokens`, whatever
connectives, chains and groups lie in each other (`tokenize_text`).  `Reads cs rest us` says
that a lexer takes the tokens `us` off the text `cs` and stands right before `rest`; such
readings are put together end to end (`Reads.append`), each with the real rest of the text.
-/

namespace TableQuery.Filter

/-! ### The tokens of a tree -/

/-- The token without its place. -/
def Token.unplaced (t : Token) : Token :=
  { t with position := 0 }

namespace Expr

mutual

/-- The tokens of the canonical text of a tree, without their places. -/
def tokens : Expr → List Token
  | binary left op _ right => left.tokens ++ ⟨op.kind, op.symbol, none, 0⟩ :: right.tokens
  | logical _ [] => []
  | logical op (e :: more) => e.tokens ++ moreTokens op more
  | group inner => ⟨.leftParen, "(", none, 0⟩ :: inner.tokens ++ [⟨.rightParen, ")", none, 0⟩]
  | literal v => [literalToken v]
  | column name _ => [⟨.identifier, name, none, 0⟩]

/-- The tokens of the further operands of a run, the connective before each. -/
def moreTokens (op : Connective) : List Expr → List Token
  | [] => []
  | e :: more => ⟨op.kind, op.symbol, none, 0⟩ :: e.tokens ++ moreTokens op more

end

theorem tokens_ne_nil {e : Expr} (h : e.isNormal = true) :
  e.tokens ≠ []
  := by
  induction e with
  | binary => simp [tokens]
  | logical op operands ih =>
    obtain ⟨hlength, hoperands⟩ := isNormal_logical_iff.mp h
    cases operands with
    | nil => simp at hlength
    | cons e more =>
      have hne := ih e List.mem_cons_self (hoperands e List.mem_cons_self).2
      simp [tokens, hne]
  | group => simp [tokens]
  | literal => simp [tokens]
  | column => simp [tokens]

end Expr

/-! ### Leaves that can be read -/

namespace Expr

/-- Whether a leaf is one that is read over the columns. -/
def isReadableOver (columns : List String) : Expr → Bool
  | literal v => isReadable v
  | column name _ => isName name && columns.contains name
  | _ => false

/-- Whether a leaf is not an infinite literal. -/
def isFinite : Expr → Bool
  | literal (.float x) => x.isFinite
  | _ => true

/-- Whether a tree over the columns has the shape of those that are read, and leaves that are
read back. -/
def isCanonical (columns : List String) (e : Expr) : Bool :=
  e.isNormal && e.leaves.all fun leaf => leaf.isReadableOver columns && leaf.isFinite

end Expr

/-! ### Readings -/

/-- A lexer takes the tokens `us`, wherever they stand, off the text `cs` before `rest`. -/
def Reads (cs rest : List Char) (us : List Token) : Prop :=
  ∀ position, ∃ ts stop, Lexer.Takes ⟨cs ++ rest, position, false⟩ ts ⟨rest, stop, false⟩ ∧
    ts.map Token.unplaced = us

theorem Reads.append {cs ds rest : List Char} {us vs : List Token}
    (h : Reads cs (ds ++ rest) us) (h' : Reads ds rest vs) :
  Reads (cs ++ ds) rest (us ++ vs)
  := by
  intro position
  obtain ⟨ts, stop, htakes, hts⟩ := h position
  obtain ⟨ts', stop', htakes', hts'⟩ := h' stop
  refine ⟨ts ++ ts', stop', ?_, by rw [List.map_append, hts, hts']⟩
  rw [List.append_assoc]
  apply htakes.append htakes'

/-- A token is read off the front of a text. -/
theorem Scans.reads {cs rest : List Char} {t : Token} (h : Scans cs rest t) :
  Reads cs rest [t.unplaced]
  := by
  intro position
  have hplaced : Scans cs rest { t with position } := scans_iff.mpr (scans_iff.mp h)
  exact ⟨_, _, .cons hplaced.next?_eq (.nil _), rfl⟩

/-- White space before tokens is passed over. -/
theorem Reads.gaps {gaps cs rest : List Char} {us : List Token} (h : Reads cs rest us)
    (hgaps : ∀ c ∈ gaps, isGap c = true) (hne : us ≠ []) :
  Reads (gaps ++ cs) rest us
  := by
  intro position
  obtain ⟨ts, stop, htakes, hts⟩ := h (position + gaps.length)
  refine ⟨ts, stop, ?_, hts⟩
  cases ts with
  | nil => exact absurd hts.symm hne
  | cons t ts =>
    obtain _ | ⟨hnext, hs⟩ := htakes
    rw [← next?_gaps hgaps, ← List.append_assoc] at hnext
    exact .cons hnext hs

/-- A blank before tokens is passed over. -/
theorem Reads.blank {cs rest : List Char} {us : List Token} (h : Reads cs rest us)
    (hne : us ≠ []) :
  Reads (' ' :: cs) rest us
  := h.gaps (List.forall_mem_singleton.mpr rfl) hne

/-- A word with blanks around it, between two other readings. -/
theorem Reads.spaced {cs ds rest : List Char} {us vs : List Token} {word : String} {t : Token}
    (hcs : Reads cs (Expr.spaced word ++ ds ++ rest) us)
    (hword : Scans word.toList (' ' :: (ds ++ rest)) t) (hds : Reads ds rest vs)
    (hne : vs ≠ []) :
  Reads (cs ++ Expr.spaced word ++ ds) rest (us ++ t.unplaced :: vs)
  := by
  have hwords : Reads (' ' :: word.toList) (' ' :: ds ++ rest) [t.unplaced] :=
    hword.reads.blank (by simp)
  have htail := hwords.append (hds.blank hne)
  have hspaced : Expr.spaced word ++ ds = ' ' :: word.toList ++ ' ' :: ds := by
    rw [Expr.spaced, List.append_assoc]
    rfl
  rw [← hspaced] at htail
  rw [List.append_assoc cs]
  apply hcs.append htail

theorem isBoundary_spaced (word : String) (rest : List Char) :
  IsBoundary (Expr.spaced word ++ rest)
  := isBoundary_blank _

theorem isBoundary_renderMore (op : Connective) (more : List Expr) {rest : List Char}
    (hrest : IsBoundary rest) :
  IsBoundary (Expr.renderMore op more ++ rest)
  := by
  cases more with
  | nil => apply hrest
  | cons e more =>
    rw [Expr.renderMore_cons, List.append_assoc, List.append_assoc]
    apply isBoundary_spaced _ _

/-- The further operands of a run are read after the first, if each of them is read. -/
theorem Reads.more {op : Connective} {more : List Expr} {cs rest : List Char} {us : List Token}
    (hmore : ∀ e ∈ more, e.isNormal = true ∧
      ∀ rest, IsBoundary rest → Reads e.render rest e.tokens)
    (hrest : IsBoundary rest) (h : Reads cs (Expr.renderMore op more ++ rest) us) :
  Reads (cs ++ Expr.renderMore op more) rest (us ++ Expr.moreTokens op more)
  := by
  induction more generalizing cs us with
  | nil =>
    have hnil : Expr.renderMore op [] = [] := by rw [Expr.renderMore, Expr.renderMoreBefore]
    rw [hnil] at h ⊢
    rwa [Expr.moreTokens, List.append_nil, List.append_nil]
  | cons e more ih =>
    obtain ⟨⟨hnormal, hreads⟩, hmore⟩ := List.forall_mem_cons.mp hmore
    rw [Expr.renderMore_cons] at h ⊢
    rw [List.append_assoc] at h
    have hfirst := h.spaced (scans_connective op _)
      (hreads _ (isBoundary_renderMore op more hrest)) (Expr.tokens_ne_nil hnormal)
    have hall := ih hmore hfirst
    rw [Expr.moreTokens]
    simp only [List.append_assoc, List.cons_append] at hall ⊢
    apply hall

/-- The canonical text of a tree is read as its tokens, where something can end after it. -/
theorem reads_render {e : Expr} {columns : List String} (hnormal : e.isNormal = true)
    (hleaves : ∀ leaf ∈ e.leaves, leaf.isReadableOver columns = true) {rest : List Char}
    (hrest : IsBoundary rest) :
  Reads e.render rest e.tokens
  := by
  induction e generalizing rest with
  | binary left op position right ihl ihr =>
    obtain ⟨-, -, hleft, hright⟩ := Expr.isNormal_binary_iff.mp hnormal
    obtain ⟨hlleaves, hrleaves⟩ := Expr.forall_mem_leaves_binary.mp hleaves
    have hbefore : Reads left.render (Expr.spaced op.symbol ++ right.render ++ rest)
        left.tokens := by
      rw [List.append_assoc]
      apply ihl hleft hlleaves (isBoundary_spaced _ _)
    rw [Expr.render_binary, Expr.tokens]
    apply hbefore.spaced (scans_operator op _) (ihr hright hrleaves hrest)
      (Expr.tokens_ne_nil hright)
  | logical op operands ih =>
    obtain ⟨hlength, hoperands⟩ := Expr.isNormal_logical_iff.mp hnormal
    have hreads : ∀ e ∈ operands, e.isNormal = true ∧
        ∀ rest, IsBoundary rest → Reads e.render rest e.tokens := by
      intro e he
      have hleaves := Expr.forall_mem_leaves_logical.mp hleaves e he
      exact ⟨(hoperands e he).2, fun rest hrest => ih e he (hoperands e he).2 hleaves hrest⟩
    cases operands with
    | nil => simp at hlength
    | cons e more =>
      obtain ⟨⟨-, hfirst⟩, hmore⟩ := List.forall_mem_cons.mp hreads
      rw [Expr.render_logical_cons, Expr.tokens]
      exact .more hmore hrest (hfirst _ (isBoundary_renderMore op more hrest))
  | group inner ih =>
    have hinner : Reads inner.render ([')'] ++ rest) inner.tokens :=
      ih (by rwa [Expr.isNormal] at hnormal) (by rwa [Expr.leaves] at hleaves)
        (isBoundary_rightParen rest)
    rw [Expr.render_group, Expr.tokens]
    apply (scans_leftParen _).reads.append (hinner.append (scans_rightParen rest).reads)
  | literal v =>
    rw [Expr.leaves] at hleaves
    have hv := hleaves _ List.mem_cons_self
    rw [Expr.render_literal, Expr.tokens]
    apply (scans_literal hv hrest).reads
  | column name position =>
    rw [Expr.leaves] at hleaves
    have hname : isName name = true ∧ name ∈ columns := by
      simpa [Expr.isReadableOver] using hleaves _ List.mem_cons_self
    rw [Expr.render_column, Expr.tokens]
    apply (scans_name hname.1 hrest).reads

/-- What is read off the whole of a text, and the end, are the tokens of the text. -/
theorem Reads.tokenize {cs : List Char} {us : List Token} (h : Reads cs [] us) :
  ∃ ts stop, tokenize (String.ofList cs) = .ok (ts ++ [.endAt stop]) ∧
    ts.map Token.unplaced = us
  := by
  obtain ⟨ts, stop, htakes, hts⟩ := h 0
  refine ⟨ts, stop, ?_, hts⟩
  rw [List.append_nil] at htakes
  have hend : (Lexer.mk [] stop false).next? = some (.ok (.endAt stop), ⟨[], stop, true⟩) := rfl
  apply tokenize_eq_ok_iff.mpr
  refine ⟨⟨[], stop, true⟩, ?_, rfl⟩
  rw [Lexer.ofString, String.toList_ofList]
  apply htakes.append (.cons hend (.nil _))

/-- The tokens of the canonical text of a tree are those of the tree and the end. -/
theorem tokenize_text {e : Expr} {columns : List String} (hnormal : e.isNormal = true)
    (hleaves : ∀ leaf ∈ e.leaves, leaf.isReadableOver columns = true) :
  ∃ ts stop, tokenize e.text = .ok (ts ++ [.endAt stop]) ∧ ts.map Token.unplaced = e.tokens
  := (reads_render hnormal hleaves isBoundary_nil).tokenize

end TableQuery.Filter
