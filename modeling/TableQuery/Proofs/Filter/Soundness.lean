import TableQuery.Proofs.Filter.Steps

/-!
# What the reader of expressions has read

`State.HasRead s ts` says that the tokens `ts` have been put together to the parts that the
state `s` holds: each open group holds the derivations of its disjunctions, conjunctions and
comparisons that are still going on.  `State.Fits limit s` says that these parts, at the depths
of their groups, keep within the limit.  Every move preserves both
(`State.HasRead.moves`, `State.Fits.moves`), so what a run completes is derived from the tokens
it read and keeps within the limit (`Rules.Steps.expression`).
-/

namespace TableQuery.Filter

/-! ### Derivations that go on -/

/-- The tokens before the current part of a run of connectives: none, or those of the parts
read so far and a connective. -/
inductive Before (phrase : List Token → List Expr → Prop) (kind : Token.Kind) :
    List Token → List Expr → Prop where
  | nothing : Before phrase kind [] []
  | connective {ts : List Token} {t : Token} {es : List Expr} (h : phrase ts es)
    (ht : t.kind = kind) :
    Before phrase kind (ts ++ [t]) es

/-- The tokens before the current operand of a chain of comparisons: none, or those of the
chain read so far and an operator. -/
inductive BeforeOperand : List Token → Option Pending → Prop where
  | nothing : BeforeOperand [] none
  | operator {ts : List Token} {t : Token} {op : Operator} {e : Expr} (h : Comparison ts e)
    (ht : t.kind.operator? = some op) :
    BeforeOperand (ts ++ [t]) (some ⟨e, op, t.position⟩)

theorem Before.disjunction {ts us : List Token} {es fs : List Expr}
    (h : Before Disjunction .or ts es) (hu : Conjunction us fs) :
  Disjunction (ts ++ us) (es ++ [.join .and fs])
  := by
  cases h with
  | nothing => exact .conjunction hu
  | connective h ht =>
    rw [List.append_assoc]
    exact .or h ht hu

theorem Before.conjunction {ts us : List Token} {es : List Expr} {e : Expr}
    (h : Before Conjunction .and ts es) (hu : Comparison us e) :
  Conjunction (ts ++ us) (es ++ [e])
  := by
  cases h with
  | nothing => exact .comparison hu
  | connective h ht =>
    rw [List.append_assoc]
    exact .and h ht hu

theorem BeforeOperand.comparison {f : Frame} {ts us : List Token} {e : Expr}
    (h : BeforeOperand ts f.pending?) (hu : Operand us e) :
  Comparison (ts ++ us) (f.attach e)
  := by
  rw [Frame.attach]
  generalize f.pending? = pending at h
  cases h with
  | nothing => exact .operand hu
  | operator h ht =>
    rw [List.append_assoc]
    exact .operator h ht hu

namespace Frame

/-- The tokens read of a group in which an operand is due. -/
inductive Due (f : Frame) : List Token → Prop where
  | intro {ts us vs : List Token} (hd : Before Disjunction .or ts f.disjuncts.reverse)
    (hc : Before Conjunction .and us f.conjuncts.reverse) (hp : BeforeOperand vs f.pending?) :
    Due f (ts ++ us ++ vs)

/-- The tokens read of a group in which the comparison `e` was read last. -/
inductive Read (f : Frame) (e : Expr) : List Token → Prop where
  | intro {ts us vs : List Token} (hd : Before Disjunction .or ts f.disjuncts.reverse)
    (hc : Before Conjunction .and us f.conjuncts.reverse) (hv : Comparison vs e) :
    Read f e (ts ++ us ++ vs)

theorem due_start (base : Nat) :
  (start base).Due []
  := @Due.intro (start base) [] [] [] .nothing .nothing .nothing

theorem Due.attach {f : Frame} {ts us : List Token} {e : Expr} (h : f.Due ts)
    (hu : Operand us e) :
  f.Read (f.attach e) (ts ++ us)
  := by
  obtain ⟨hd, hc, hp⟩ := h
  rw [List.append_assoc]
  exact .intro hd hc (hp.comparison hu)

theorem Read.afterOperator {f : Frame} {ts : List Token} {t : Token} {op : Operator} {e : Expr}
    (h : f.Read e ts) (ht : t.kind.operator? = some op) :
  (f.afterOperator e op t.position).Due (ts ++ [t])
  := by
  obtain ⟨hd, hc, hv⟩ := h
  rw [List.append_assoc]
  exact .intro hd hc (.operator hv ht)

theorem Read.conjunction {f : Frame} {ts : List Token} {e : Expr} (h : f.Read e ts) :
  ∃ us vs, ts = us ++ vs ∧ Before Disjunction .or us f.disjuncts.reverse ∧
    Conjunction vs (f.conjuncts.reverse ++ [e])
  := by
  obtain @⟨us, vs, ws, hd, hc, hv⟩ := h
  exact ⟨us, vs ++ ws, List.append_assoc us vs ws, hd, hc.conjunction hv⟩

theorem Read.disjunction {f : Frame} {ts : List Token} {e : Expr} (h : f.Read e ts) :
  Disjunction ts (f.disjuncts.reverse ++ [f.conjunction e])
  := by
  obtain ⟨us, vs, rfl, hd, hc⟩ := h.conjunction
  apply hd.disjunction hc

theorem Read.afterAnd {f : Frame} {ts : List Token} {t : Token} {e : Expr} (h : f.Read e ts)
    (ht : t.kind = .and) :
  (f.afterAnd e).Due (ts ++ [t])
  := by
  obtain ⟨us, vs, rfl, hd, hc⟩ := h.conjunction
  have hbefore : Before Conjunction .and (vs ++ [t]) (f.afterAnd e).conjuncts.reverse := by
    rw [Frame.afterAnd, List.reverse_cons]
    exact .connective hc ht
  have hdue := Due.intro (f := f.afterAnd e) hd hbefore .nothing
  rwa [List.append_nil, ← List.append_assoc] at hdue

theorem Read.afterOr {f : Frame} {ts : List Token} {t : Token} {e : Expr} (h : f.Read e ts)
    (ht : t.kind = .or) :
  (f.afterOr e).Due (ts ++ [t])
  := by
  have hbefore : Before Disjunction .or (ts ++ [t]) (f.afterOr e).disjuncts.reverse := by
    rw [Frame.afterOr, List.reverse_cons]
    exact .connective h.disjunction ht
  have hdue := Due.intro (f := f.afterOr e) hbefore .nothing .nothing
  rwa [List.append_nil, List.append_nil] at hdue

end Frame

/-- The tokens up to the start of the innermost open group. -/
inductive Around : List Frame → List Token → Prop where
  | nil : Around [] []
  | cons {g : Frame} {outer : List Frame} {ts us : List Token} {t : Token} (h : Around outer ts)
    (hg : g.Due us) (ht : t.kind = .leftParen) :
    Around (g :: outer) (ts ++ (us ++ [t]))

/-- The tokens that a state has read. -/
inductive State.HasRead : State → List Token → Prop where
  | due {f : Frame} {outer : List Frame} {ts us : List Token} (h : Around outer ts)
    (hf : f.Due us) :
    State.HasRead (.due f outer) (ts ++ us)
  | read {f : Frame} {e : Expr} {outer : List Frame} {ts us : List Token} (h : Around outer ts)
    (hf : f.Read e us) :
    State.HasRead (.read e f outer) (ts ++ us)

theorem State.hasRead_start :
  State.start.HasRead []
  := .due .nil (Frame.due_start 0)

/-- A move adds its token to what the state has read. -/
theorem State.HasRead.moves {r : Rules} {s s' : State} {ts : List Token} {t : Token}
    (hs : s.HasRead ts) (h : r.Moves s t s') :
  s'.HasRead (ts ++ [t])
  := by
  cases h with
  | @leftParen _ f outer ht hf =>
    obtain ⟨h, hdue⟩ := hs
    have hread := State.HasRead.due (h.cons hdue ht) (Frame.due_start (f.depth + 1))
    rwa [List.append_nil, ← List.append_assoc] at hread
  | operand ht hnames =>
    obtain ⟨h, hdue⟩ := hs
    rw [List.append_assoc]
    exact .read h (hdue.attach (.leaf ht))
  | operator ht hf =>
    obtain _ | ⟨h, hread⟩ := hs
    rw [List.append_assoc]
    exact .due h (hread.afterOperator ht)
  | and ht =>
    obtain _ | ⟨h, hread⟩ := hs
    rw [List.append_assoc]
    exact .due h (hread.afterAnd ht)
  | or ht =>
    obtain _ | ⟨h, hread⟩ := hs
    rw [List.append_assoc]
    exact .due h (hread.afterOr ht)
  | @rightParen _ e f g outer ht =>
    obtain _ | ⟨h, hread⟩ := hs
    obtain _ | ⟨h, hdue, hopen⟩ := h
    have hgroup := hdue.attach (.group hopen hread.disjunction ht)
    have hall := State.HasRead.read h hgroup
    simp only [List.append_assoc, List.cons_append, List.nil_append] at hall ⊢
    apply hall

theorem State.HasRead.steps {r : Rules} {s s' : State} {ts us : List Token} (hs : s.HasRead ts)
    (h : r.Steps s us s') :
  s'.HasRead (ts ++ us)
  := by
  induction h generalizing ts with
  | nil s => rwa [List.append_nil]
  | cons ht _ ih =>
    rw [List.append_cons]
    apply ih (hs.moves ht)

/-! ### Depths -/

/-- A run of operands keeps within the limit if each of them does, the last one included. -/
theorem Expr.add_nesting_join_le {base limit : Nat} {op : Connective} {es : List Expr} {e : Expr}
    (hes : ∀ d ∈ es, base + d.nesting ≤ limit) (he : base + e.nesting ≤ limit) :
  base + (join op (es.reverse ++ [e])).nesting ≤ limit
  := by
  have hnesting : (join op (es.reverse ++ [e])).nesting ≤ limit - base := by
    apply nesting_join_le.mpr
    intro d hd
    rcases List.mem_append.mp hd with hd | hd
    · have := hes d (List.mem_reverse.mp hd)
      omega
    · rw [List.mem_singleton.mp hd]
      omega
  omega

namespace Frame

/-- The parts of a group that are complete keep within the limit of depth. -/
structure Fits (limit : Nat) (f : Frame) : Prop where
  depth : f.depth ≤ limit
  disjuncts : ∀ e ∈ f.disjuncts, f.base + e.nesting ≤ limit
  conjuncts : ∀ e ∈ f.conjuncts, f.base + e.nesting ≤ limit

/-- The parts of a group in which an operand is due keep within the limit, and the operators
of the chain under way are counted. -/
structure FitsDue (limit : Nat) (f : Frame) : Prop extends f.Fits limit where
  pending : ∀ p, f.pending? = some p → f.base + p.left.nesting ≤ limit
  links : f.links = f.pending?.elim 0 fun p => p.left.links + 1

/-- The parts of a group in which the comparison `e` was read last keep within the limit, and
the operators of that comparison are counted. -/
structure FitsRead (limit : Nat) (f : Frame) (e : Expr) : Prop extends f.Fits limit where
  comparison : f.base + e.nesting ≤ limit
  links : f.links = e.links

variable {limit : Nat} {f : Frame}

theorem fitsDue_start {base : Nat} (h : base ≤ limit) :
  (start base).FitsDue limit
  where
  depth := h
  disjuncts _ he := nomatch he
  conjuncts _ he := nomatch he
  pending _ hp := nomatch hp
  links := rfl

theorem FitsDue.attach (h : f.FitsDue limit) {e : Expr} (hlinks : e.links = 0)
    (he : f.depth + e.nesting ≤ limit) :
  f.FitsRead limit (f.attach e)
  := by
  have hcount := h.links
  rw [Frame.depth] at he
  constructor
  · apply h.toFits
  · rw [Frame.attach]
    cases hp : f.pending? with
    | none =>
      rw [hp] at hcount
      simp only [Option.elim, attachTo] at hcount ⊢
      omega
    | some p =>
      have hleft := h.pending p hp
      rw [hp] at hcount
      simp only [Option.elim, attachTo, Expr.nesting] at hcount ⊢
      omega
  · rw [Frame.attach]
    cases hp : f.pending? with
    | none =>
      rw [hp] at hcount
      apply hcount.trans hlinks.symm
    | some p =>
      rw [hp] at hcount
      apply hcount

theorem FitsRead.base_le {e : Expr} (h : f.FitsRead limit e) :
  f.base ≤ limit
  := Nat.le_trans (Nat.le_add_right _ _) h.comparison

theorem FitsRead.conjunction {e : Expr} (h : f.FitsRead limit e) :
  f.base + (f.conjunction e).nesting ≤ limit
  := Expr.add_nesting_join_le h.conjuncts h.comparison

theorem FitsRead.expression {e : Expr} (h : f.FitsRead limit e) :
  f.base + (f.expression e).nesting ≤ limit
  := Expr.add_nesting_join_le h.disjuncts h.conjunction

theorem FitsRead.afterOperator {e : Expr} (h : f.FitsRead limit e) (op : Operator)
    (position : Nat) (hdepth : f.depth < limit) :
  (f.afterOperator e op position).FitsDue limit
  := by
  have hlinks := h.links
  constructor
  · exact ⟨hdepth, h.disjuncts, h.conjuncts⟩
  · intro p hp
    cases hp
    apply h.comparison
  · simp only [Frame.afterOperator, Option.elim, hlinks]

theorem FitsRead.afterAnd {e : Expr} (h : f.FitsRead limit e) :
  (f.afterAnd e).FitsDue limit
  := by
  constructor
  · constructor
    · apply h.base_le
    · apply h.disjuncts
    · exact List.forall_mem_cons.mpr ⟨h.comparison, h.conjuncts⟩
  · exact fun _ hp => nomatch hp
  · rfl

theorem FitsRead.afterOr {e : Expr} (h : f.FitsRead limit e) :
  (f.afterOr e).FitsDue limit
  := by
  constructor
  · constructor
    · apply h.base_le
    · exact List.forall_mem_cons.mpr ⟨h.conjunction, h.disjuncts⟩
    · exact fun _ he => nomatch he
  · exact fun _ hp => nomatch hp
  · rfl

end Frame

/-- The groups around one at depth `base` keep within the limit. -/
inductive AroundFits (limit : Nat) : List Frame → Nat → Prop where
  | nil : AroundFits limit [] 0
  | cons {g : Frame} {outer : List Frame} (h : AroundFits limit outer g.base)
    (hg : g.FitsDue limit) :
    AroundFits limit (g :: outer) (g.depth + 1)

/-- What a state holds keeps within the limit of depth. -/
inductive State.Fits (limit : Nat) : State → Prop where
  | due {f : Frame} {outer : List Frame} (h : AroundFits limit outer f.base)
    (hf : f.FitsDue limit) :
    State.Fits limit (.due f outer)
  | read {f : Frame} {e : Expr} {outer : List Frame} (h : AroundFits limit outer f.base)
    (hf : f.FitsRead limit e) :
    State.Fits limit (.read e f outer)

theorem State.fits_start (limit : Nat) :
  State.start.Fits limit
  := .due .nil (Frame.fitsDue_start (Nat.zero_le limit))

/-- A move keeps within the limit. -/
theorem State.Fits.moves {r : Rules} {s s' : State} {t : Token} (hs : s.Fits r.limit)
    (h : r.Moves s t s') :
  s'.Fits r.limit
  := by
  cases h with
  | leftParen ht hf =>
    obtain ⟨h, hdue⟩ := hs
    exact .due (h.cons hdue) (Frame.fitsDue_start hf)
  | @operand _ e f outer ht hnames =>
    obtain ⟨h, hdue⟩ := hs
    exact .read h (hdue.attach ht.links_eq (by rw [ht.nesting_eq]; exact hdue.depth))
  | @operator t op e f outer ht hf =>
    obtain _ | ⟨h, hread⟩ := hs
    exact .due h (hread.afterOperator op t.position hf)
  | and ht =>
    obtain _ | ⟨h, hread⟩ := hs
    exact .due h hread.afterAnd
  | or ht =>
    obtain _ | ⟨h, hread⟩ := hs
    exact .due h hread.afterOr
  | @rightParen _ e f g outer ht =>
    obtain _ | ⟨h, hread⟩ := hs
    have hbody := hread.expression
    generalize f.base = base at h hbody
    obtain _ | ⟨h, hdue⟩ := h
    refine .read h (hdue.attach rfl ?_)
    rw [Expr.nesting]
    omega

theorem State.Fits.steps {r : Rules} {s s' : State} {ts : List Token} (hs : s.Fits r.limit)
    (h : r.Steps s ts s') :
  s'.Fits r.limit
  := by
  induction h with
  | nil s => apply hs
  | cons ht _ ih => apply ih (hs.moves ht)

/-! ### Completed runs -/

/-- What has been read when no group is open is an expression that keeps within the limit. -/
theorem Rules.Steps.expression {r : Rules} {ts : List Token} {e : Expr} {f : Frame}
    (h : r.Steps .start ts (.read e f [])) :
  Expression ts (f.expression e) ∧ (f.expression e).nesting ≤ r.limit
  := by
  have hread := State.hasRead_start.steps h
  have hfits := (State.fits_start r.limit).steps h
  constructor
  · rw [List.nil_append] at hread
    generalize ts = us at hread
    obtain _ | ⟨h, hread⟩ := hread
    obtain _ | _ := h
    exact ⟨_, hread.disjunction, rfl⟩
  · obtain _ | ⟨h, hread⟩ := hfits
    apply Nat.le_trans (Nat.le_add_left _ _) hread.expression

end TableQuery.Filter
