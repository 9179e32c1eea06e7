import TableQuery.Proofs.Filter.Grammar

/-!
# Runs of the reader of expressions

`Rules.Moves` lists the moves of a state over one token, `Rules.Refuses` the tokens that are
errors where they stand, and `Rules.Steps r s ts s'` says that the state `s` moves over the
tokens `ts` to `s'`.  A run takes steps until it ends (`Rules.exists_steps_of_run`), and it goes
on from a state that it has reached (`Rules.run_of_steps`).  The tokens of a derivation move the
state at the start of a group to the one after its tree (`Rules.steps_of_disjunction`).
-/

namespace TableQuery.Filter

namespace Rules

variable {r : Rules}

/-! ### Single steps -/

/-- A state moves over a token to another state. -/
inductive Moves (r : Rules) : State → Token → State → Prop where
  | leftParen {t : Token} {f : Frame} {outer : List Frame} (ht : t.kind = .leftParen)
    (hf : f.depth < r.limit) :
    Moves r (.due f outer) t (.due (.start (f.depth + 1)) (f :: outer))
  | operand {t : Token} {e : Expr} {f : Frame} {outer : List Frame} (ht : Leaf t e)
    (hnames : NamesIn r.columns [t]) :
    Moves r (.due f outer) t (.read (f.attach e) f outer)
  | operator {t : Token} {op : Operator} {e : Expr} {f : Frame} {outer : List Frame}
    (ht : t.kind.operator? = some op) (hf : f.depth < r.limit) :
    Moves r (.read e f outer) t (.due (f.afterOperator e op t.position) outer)
  | and {t : Token} {e : Expr} {f : Frame} {outer : List Frame} (ht : t.kind = .and) :
    Moves r (.read e f outer) t (.due (f.afterAnd e) outer)
  | or {t : Token} {e : Expr} {f : Frame} {outer : List Frame} (ht : t.kind = .or) :
    Moves r (.read e f outer) t (.due (f.afterOr e) outer)
  | rightParen {t : Token} {e : Expr} {f g : Frame} {outer : List Frame}
    (ht : t.kind = .rightParen) :
    Moves r (.read e f (g :: outer)) t (.read (g.attach (.group (f.expression e))) g outer)

theorem column_eq_ok_iff {t : Token} {e : Expr} :
  r.column t = .ok e ↔ t.lexeme ∈ r.columns ∧ e = .column t.lexeme t.position
  := by
  unfold column
  split
  · next h =>
    have hmem : t.lexeme ∈ r.columns := by simpa using h
    simp [hmem, eq_comm]
  · next h =>
    have hmem : t.lexeme ∉ r.columns := by simpa using h
    simp [hmem]

/-- The operands that single tokens stand for are the leaves of derivations. -/
theorem operand?_eq_some_ok_iff {t : Token} {e : Expr} :
  r.operand? t = some (.ok e) ↔ Leaf t e ∧ NamesIn r.columns [t]
  := by
  constructor
  · intro h
    cases hk : t.kind with
    | identifier =>
      simp only [operand?, hk, Option.some.injEq] at h
      obtain ⟨hmem, rfl⟩ := column_eq_ok_iff.mp h
      exact ⟨.name hk, namesIn_singleton fun _ => hmem⟩
    | number =>
      simp only [operand?, hk, Option.some.injEq, Except.ok.injEq] at h
      exact h ▸ ⟨.number hk, namesIn_singleton (by simp [hk])⟩
    | string =>
      simp only [operand?, hk, Option.some.injEq, Except.ok.injEq] at h
      exact h ▸ ⟨.string hk, namesIn_singleton (by simp [hk])⟩
    | trueWord =>
      simp only [operand?, hk, Option.some.injEq, Except.ok.injEq] at h
      exact h ▸ ⟨.trueWord hk, namesIn_singleton (by simp [hk])⟩
    | falseWord =>
      simp only [operand?, hk, Option.some.injEq, Except.ok.injEq] at h
      exact h ▸ ⟨.falseWord hk, namesIn_singleton (by simp [hk])⟩
    | nullWord =>
      simp only [operand?, hk, Option.some.injEq, Except.ok.injEq] at h
      exact h ▸ ⟨.nullWord hk, namesIn_singleton (by simp [hk])⟩
    | _ => simp [operand?, hk] at h
  · rintro ⟨h, hnames⟩
    cases h with
    | name ht =>
      simp only [operand?, ht, Option.some.injEq]
      apply column_eq_ok_iff.mpr ⟨hnames t List.mem_cons_self ht, rfl⟩
    | number ht | string ht | trueWord ht | falseWord ht | nullWord ht => simp [operand?, ht]

theorem openGroup_eq_ok_iff {t : Token} {f : Frame} {outer : List Frame} {s : State} :
  r.openGroup t f outer = .ok s
    ↔ f.depth < r.limit ∧ s = .due (.start (f.depth + 1)) (f :: outer)
  := by
  unfold openGroup
  split
  · next h => simp [Nat.not_lt.mpr h]
  · next h => simp [Nat.lt_of_not_le h, eq_comm]

/-- The moves are what `advance?` does. -/
theorem advance?_eq_some_iff {s s' : State} {t : Token} :
  r.advance? s t = .ok (some s') ↔ Moves r s t s'
  := by
  constructor
  · intro h
    cases s with
    | due f outer =>
      rw [advance?] at h
      split at h
      · next hk =>
        cases hopen : r.openGroup t f outer with
        | error e => rw [hopen] at h; cases h
        | ok s =>
          rw [hopen] at h
          cases h
          obtain ⟨hf, rfl⟩ := openGroup_eq_ok_iff.mp hopen
          exact .leftParen hk hf
      · split at h
        · next operand hop =>
          cases operand with
          | error e => cases h
          | ok e =>
            cases h
            obtain ⟨ht, hnames⟩ := operand?_eq_some_ok_iff.mp hop
            exact .operand ht hnames
        · cases h
    | read e f outer =>
      simp only [advance?] at h
      split at h
      · next op hop =>
        split at h
        · cases h
        · next hlimit =>
          cases h
          exact .operator hop (Nat.lt_of_not_le hlimit)
      · split at h
        · next hk => cases h; exact .and hk
        · next hk => cases h; exact .or hk
        · next hk => cases h; exact .rightParen hk
        · cases h
  · intro h
    cases h with
    | leftParen ht hf =>
      rw [advance?, if_pos ht, openGroup_eq_ok_iff.mpr ⟨hf, rfl⟩]
      rfl
    | operand ht hnames =>
      have hop := operand?_eq_some_ok_iff.mpr ⟨ht, hnames⟩
      have hkind : t.kind ≠ .leftParen := by
        intro hk
        simp [operand?, hk] at hop
      rw [advance?, if_neg hkind, hop]
      rfl
    | operator ht hf =>
      simp only [advance?, ht]
      rw [if_neg (Nat.not_le.mpr hf)]
    | and ht => simp [advance?, ht, Token.Kind.operator?]
    | or ht => simp [advance?, ht, Token.Kind.operator?]
    | rightParen ht => simp [advance?, ht, Token.Kind.operator?]

/-- A state refuses a token: a name is no column, or a group or an operator lies too deep. -/
inductive Refuses (r : Rules) : State → Token → ParseError → Prop where
  | name {t : Token} {f : Frame} {outer : List Frame} (ht : t.kind = .identifier)
    (hname : t.lexeme ∉ r.columns) :
    Refuses r (.due f outer) t (.unknownColumn t r.columns)
  | leftParen {t : Token} {f : Frame} {outer : List Frame} (ht : t.kind = .leftParen)
    (hf : r.limit ≤ f.depth) :
    Refuses r (.due f outer) t (.tooDeep t r.limit)
  | operator {t : Token} {op : Operator} {e : Expr} {f : Frame} {outer : List Frame}
    (ht : t.kind.operator? = some op) (hf : r.limit ≤ f.depth) :
    Refuses r (.read e f outer) t (.tooDeep t r.limit)

theorem operand?_eq_some_error_iff {t : Token} {err : ParseError} :
  r.operand? t = some (.error err)
    ↔ t.kind = .identifier ∧ t.lexeme ∉ r.columns ∧ err = .unknownColumn t r.columns
  := by
  cases hk : t.kind with
  | identifier =>
    by_cases hname : t.lexeme ∈ r.columns <;> simp [operand?, hk, column, hname, eq_comm]
  | _ => simp [operand?, hk]

/-- The errors of `advance?` are the refusals. -/
theorem advance?_eq_error_iff {s : State} {t : Token} {err : ParseError} :
  r.advance? s t = .error err ↔ Refuses r s t err
  := by
  constructor
  · intro h
    cases s with
    | due f outer =>
      rw [advance?] at h
      split at h
      · next hk =>
        rw [openGroup] at h
        split at h
        · next hlimit =>
          cases h
          exact .leftParen hk hlimit
        · cases h
      · split at h
        · next operand hop =>
          cases operand with
          | error e =>
            cases h
            obtain ⟨hk, hname, rfl⟩ := operand?_eq_some_error_iff.mp hop
            exact .name hk hname
          | ok e => cases h
        · cases h
    | read e f outer =>
      simp only [advance?] at h
      split at h
      · next op hop =>
        split at h
        · next hlimit =>
          cases h
          exact .operator hop hlimit
        · cases h
      · split at h <;> cases h
  · intro h
    cases h with
    | name ht hname =>
      have hkind : t.kind ≠ .leftParen := by simp [ht]
      rw [advance?, if_neg hkind, operand?_eq_some_error_iff.mpr ⟨ht, hname, rfl⟩]
      rfl
    | leftParen ht hf =>
      rw [advance?, if_pos ht, openGroup, if_pos hf]
      rfl
    | operator ht hf =>
      simp only [advance?, ht]
      rw [if_pos hf]

/-- A name that a state moves over is a column. -/
theorem Moves.namesIn {s s' : State} {t : Token} (h : Moves r s t s') :
  NamesIn r.columns [t]
  := by
  cases h with
  | operand ht hnames => apply hnames
  | operator ht hf =>
    refine namesIn_singleton fun hk => ?_
    simp [hk, Token.Kind.operator?] at ht
  | leftParen ht | and ht | or ht | rightParen ht =>
    refine namesIn_singleton fun hk => ?_
    rw [hk] at ht
    cases ht

/-- No state moves over the end of a filter. -/
theorem advance?_of_isEnd {t : Token} (ht : t.isEnd = true) (s : State) :
  r.advance? s t = .ok none
  := by
  have hkind : t.kind = .endOfInput := by simpa [Token.isEnd] using ht
  cases s with
  | due f outer => simp [advance?, hkind, operand?]
  | read e f outer => simp [advance?, hkind, Token.Kind.operator?]

/-! ### Runs -/

/-- The state `s` moves over the tokens to the state `s'`. -/
inductive Steps (r : Rules) : State → List Token → State → Prop where
  | nil (s : State) : Steps r s [] s
  | cons {s s' s'' : State} {t : Token} {ts : List Token} (h : Moves r s t s')
    (hs : Steps r s' ts s'') : Steps r s (t :: ts) s''

theorem Steps.append {s s' s'' : State} {ts us : List Token} (h : Steps r s ts s')
    (h' : Steps r s' us s'') :
  Steps r s (ts ++ us) s''
  := by
  induction h with
  | nil s => apply h'
  | cons ht _ ih => exact .cons ht (ih h')

theorem Moves.steps {s s' : State} {t : Token} (h : Moves r s t s') :
  Steps r s [t] s'
  := .cons h (.nil s')

/-- The names that a state moves over are columns. -/
theorem Steps.namesIn {s s' : State} {ts : List Token} (h : Steps r s ts s') :
  NamesIn r.columns ts
  := by
  induction h with
  | nil s => apply namesIn_nil
  | cons ht _ ih => apply namesIn_append.mpr ⟨ht.namesIn, ih⟩

/-- A run goes on from a state that it has reached. -/
theorem run_of_steps {s s' : State} {ts : List Token} (h : Steps r s ts s') (last : Token)
    (rest : List Token) :
  run r last s (ts ++ rest) = run r last s' rest
  := by
  induction h with
  | nil s => rfl
  | cons ht _ ih =>
    rw [List.cons_append, run, advance?_eq_some_iff.mpr ht]
    apply ih

/-- Why a run ends in the state `s` before the tokens `rest`, and what it gives. -/
inductive Ends (r : Rules) (last : Token) (s : State) :
    List Token → Except ParseError (Expr × Token) → Prop where
  | atEnd : Ends r last s [] ((stop s last).map (·, last))
  | stuck {t : Token} {rest : List Token} (h : r.advance? s t = .ok none) :
    Ends r last s (t :: rest) ((stop s t).map (·, t))
  | fault {t : Token} {rest : List Token} {e : ParseError} (h : r.advance? s t = .error e) :
    Ends r last s (t :: rest) (.error e)

/-- A run takes steps until it ends. -/
theorem exists_steps_of_run (r : Rules) (last : Token) (s : State) (ts : List Token) :
  ∃ us rest s', ts = us ++ rest ∧ Steps r s us s' ∧ Ends r last s' rest (run r last s ts)
  := by
  induction ts generalizing s with
  | nil => exact ⟨[], [], s, rfl, .nil s, .atEnd⟩
  | cons t ts ih =>
    rw [run]
    cases h : r.advance? s t with
    | error e => exact ⟨[], t :: ts, s, rfl, .nil s, .fault h⟩
    | ok next =>
      cases next with
      | none => exact ⟨[], t :: ts, s, rfl, .nil s, .stuck h⟩
      | some s' =>
        obtain ⟨us, rest, s'', rfl, hs, hends⟩ := ih s'
        exact ⟨t :: us, rest, s'', rfl, .cons (advance?_eq_some_iff.mp h) hs, hends⟩

end Rules

/-! ### Derivations as steps -/

/-- The last operator of a chain of comparisons. -/
def Expr.lastLink? : Expr → Option Pending
  | .binary left op position _ => some ⟨left, op, position⟩
  | _ => none

/-- The group once the chain of comparisons `e` has been read: its last operator is still
noted, and its operators are counted. -/
def Frame.along (f : Frame) (e : Expr) : Frame :=
  { f with pending? := e.lastLink?, links := e.links }

/-- No comparison is under way in the group. -/
structure Frame.IsFresh (f : Frame) : Prop where
  pending : f.pending? = none
  links : f.links = 0

theorem Frame.isFresh_start (base : Nat) :
  (Frame.start base).IsFresh
  := ⟨rfl, rfl⟩

theorem Frame.isFresh_afterAnd (f : Frame) (e : Expr) :
  (f.afterAnd e).IsFresh
  := ⟨rfl, rfl⟩

theorem Frame.isFresh_afterOr (f : Frame) (e : Expr) :
  (f.afterOr e).IsFresh
  := ⟨rfl, rfl⟩

theorem Frame.IsFresh.attach {f : Frame} (hf : f.IsFresh) (e : Expr) :
  f.attach e = e
  := by
  rw [Frame.attach, hf.pending, attachTo]

theorem Frame.IsFresh.along {f : Frame} (hf : f.IsFresh) {ts : List Token} {e : Expr}
    (h : Operand ts e) :
  f.along e = f
  := by
  obtain ⟨disjuncts, conjuncts, pending, base, links⟩ := f
  obtain ⟨rfl, rfl⟩ := hf
  cases h with
  | leaf h => cases h <;> rfl
  | group => rfl

namespace Rules

variable {r : Rules}

mutual

/-- The tokens of an operand move a state in which one is due to the one after its tree. -/
theorem steps_of_operand {ts : List Token} {e : Expr} (h : Operand ts e)
    (hnames : NamesIn r.columns ts) (f : Frame) (outer : List Frame)
    (hdepth : f.depth + e.nesting ≤ r.limit) :
  Steps r (.due f outer) ts (.read (f.attach e) f outer)
  := by
  match h with
  | .leaf h => apply (Moves.operand h hnames).steps
  | @Operand.group _ _ ts es hl hbody hr =>
    have hbodyNames : NamesIn r.columns ts :=
      (namesIn_append.mp (namesIn_cons.mp hnames).2).1
    rw [Expr.nesting] at hdepth
    have hbodyDepth : ∀ e ∈ es, f.depth + 1 + e.nesting ≤ r.limit := by
      intro e he
      have := Expr.nesting_le_join .or he
      omega
    obtain ⟨e, g, hsteps, hes, hbase⟩ :=
      steps_of_disjunction hbody hbodyNames (f.depth + 1) (f :: outer) hbodyDepth
    have hopen : Moves r (.due f outer) _ (.due (.start (f.depth + 1)) (f :: outer)) :=
      .leftParen hl (by omega)
    have hclose : Moves r (.read e g (f :: outer)) _ _ := .rightParen hr
    rw [Frame.expression, hes] at hclose
    apply (hopen.steps.append hsteps).append hclose.steps

/-- The tokens of a chain of comparisons move a fresh group along it. -/
theorem steps_of_comparison {ts : List Token} {e : Expr} (h : Comparison ts e)
    (hnames : NamesIn r.columns ts) {f : Frame} (hf : f.IsFresh) (outer : List Frame)
    (hdepth : f.base + e.nesting ≤ r.limit) :
  Steps r (.due f outer) ts (.read e (f.along e) outer)
  := by
  match h with
  | .operand h =>
    have hsteps := steps_of_operand h hnames f outer (by rw [Frame.depth, hf.links]; exact hdepth)
    rw [hf.attach] at hsteps
    rw [hf.along h]
    apply hsteps
  | @Comparison.operator ts us t op e _ h ht hu =>
    obtain ⟨htsNames, hrest⟩ := namesIn_append.mp hnames
    rw [Expr.nesting] at hdepth
    have hleft := steps_of_comparison h htsNames hf outer (by omega)
    have hop : Moves r (.read e (f.along e) outer) t _ :=
      .operator ht (by simp only [Frame.depth, Frame.along]; omega)
    have hright := steps_of_operand hu (namesIn_cons.mp hrest).2
      ((f.along e).afterOperator e op t.position) outer
      (by simp only [Frame.depth, Frame.along, Frame.afterOperator]; omega)
    have hall := (hleft.append hop.steps).append hright
    rw [List.append_assoc] at hall
    apply hall

/-- The tokens of a conjunction move a fresh group to the last of its comparisons. -/
theorem steps_of_conjunction {ts : List Token} {es : List Expr} (h : Conjunction ts es)
    (hnames : NamesIn r.columns ts) {f : Frame} (hf : f.IsFresh) (hconj : f.conjuncts = [])
    (outer : List Frame) (hdepth : ∀ e ∈ es, f.base + e.nesting ≤ r.limit) :
  ∃ e g, Steps r (.due f outer) ts (.read e g outer) ∧ g.conjuncts.reverse ++ [e] = es ∧
    g.disjuncts = f.disjuncts ∧ g.base = f.base
  := by
  match h with
  | @Conjunction.comparison _ e h =>
    have hsteps := steps_of_comparison h hnames hf outer (hdepth e List.mem_cons_self)
    refine ⟨e, f.along e, hsteps, ?_, rfl, rfl⟩
    simp [Frame.along, hconj]
  | @Conjunction.and ts us t es e h ht hu =>
    obtain ⟨htsNames, hrest⟩ := namesIn_append.mp hnames
    obtain ⟨d, g, hleft, hes, hdisj, hbase⟩ := steps_of_conjunction h htsNames hf hconj outer
      (fun d hd => hdepth d (List.mem_append_left _ hd))
    have hand : Moves r (.read d g outer) t _ := .and ht
    have hlast : f.base + e.nesting ≤ r.limit :=
      hdepth e (List.mem_append_right _ List.mem_cons_self)
    have hright := steps_of_comparison hu (namesIn_cons.mp hrest).2 (g.isFresh_afterAnd d) outer
      (by rw [Frame.afterAnd, hbase]; exact hlast)
    have hall := (hleft.append hand.steps).append hright
    rw [List.append_assoc] at hall
    refine ⟨e, (g.afterAnd d).along e, hall, ?_, hdisj, hbase⟩
    simp [Frame.along, Frame.afterAnd, hes]

/-- The tokens of a disjunction move the start of a group to the last of its comparisons. -/
theorem steps_of_disjunction {ts : List Token} {es : List Expr} (h : Disjunction ts es)
    (hnames : NamesIn r.columns ts) (base : Nat) (outer : List Frame)
    (hdepth : ∀ e ∈ es, base + e.nesting ≤ r.limit) :
  ∃ e g, Steps r (.due (.start base) outer) ts (.read e g outer) ∧
    g.disjuncts.reverse ++ [g.conjunction e] = es ∧ g.base = base
  := by
  match h with
  | @Disjunction.conjunction _ es h =>
    have hes : ∀ e ∈ es, base + e.nesting ≤ r.limit := by
      intro e he
      have hjoin := hdepth _ List.mem_cons_self
      have := Expr.nesting_le_join .and he
      omega
    obtain ⟨e, g, hsteps, hconj, hdisj, hbase⟩ :=
      steps_of_conjunction h hnames (Frame.isFresh_start base) rfl outer hes
    refine ⟨e, g, hsteps, ?_, hbase⟩
    simp [Frame.conjunction, hconj, hdisj, Frame.start]
  | @Disjunction.or ts us t es fs h ht hu =>
    obtain ⟨htsNames, hrest⟩ := namesIn_append.mp hnames
    obtain ⟨d, g, hleft, hes, hbase⟩ := steps_of_disjunction h htsNames base outer
      (fun d hd => hdepth d (List.mem_append_left _ hd))
    have hor : Moves r (.read d g outer) t _ := .or ht
    have hfs : ∀ e ∈ fs, (g.afterOr d).base + e.nesting ≤ r.limit := by
      intro e he
      have hjoin := hdepth _ (List.mem_append_right _ List.mem_cons_self)
      have := Expr.nesting_le_join .and he
      rw [Frame.afterOr, hbase]
      omega
    obtain ⟨e, g', hright, hconj, hdisj, hbase'⟩ := steps_of_conjunction hu
      (namesIn_cons.mp hrest).2 (g.isFresh_afterOr d) rfl outer hfs
    have hall := (hleft.append hor.steps).append hright
    rw [List.append_assoc] at hall
    refine ⟨e, g', hall, ?_, hbase'.trans hbase⟩
    simp [Frame.conjunction, hconj, hdisj, Frame.afterOr, ← hes]

end

end Rules

end TableQuery.Filter
