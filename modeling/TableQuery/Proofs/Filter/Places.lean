import Mathlib.Data.List.Forall2
import TableQuery.Proofs.Filter.Acceptance
import TableQuery.Proofs.Filter.Rendering

/-!
# Readings up to places

A reading sees the kinds of tokens, their values and the spellings of names, but not where they
stand (`Token.Alike`).  Two lists of tokens that are alike one by one are read as trees that are
equal up to positions, or fail with errors of one kind at tokens that correspond (`parse_alike`).
The two readings go through states that are equal up to positions, `State.unplaced`, and each move
keeps them so (`Rules.advance?_alike`).
-/

namespace TableQuery.Filter

/-! ### Tokens and errors -/

/-- Two tokens that a reading cannot tell apart, but for their places. -/
structure Token.Alike (t u : Token) : Prop where
  kind : t.kind = u.kind
  literal : t.literal? = u.literal?
  lexeme : t.kind = .identifier → t.lexeme = u.lexeme

theorem Token.Alike.isEnd_eq {t u : Token} (h : t.Alike u) :
  t.isEnd = u.isEnd
  := by
  rw [Token.isEnd, Token.isEnd, h.kind]

/-- Two errors of one kind, found at tokens in the relation `P`. -/
inductive ParseError.Alike (P : Token → Token → Prop) : ParseError → ParseError → Prop where
  | empty : Alike P .empty .empty
  | unknownColumn {t u : Token} (h : P t u) (available : List String) :
    Alike P (.unknownColumn t available) (.unknownColumn u available)
  | expectedExpression {t u : Token} (h : P t u) :
    Alike P (.expectedExpression t) (.expectedExpression u)
  | unclosedGroup {t u : Token} (h : P t u) : Alike P (.unclosedGroup t) (.unclosedGroup u)
  | trailingInput {t u : Token} (h : P t u) : Alike P (.trailingInput t) (.trailingInput u)
  | tooDeep {t u : Token} (h : P t u) (limit : Nat) : Alike P (.tooDeep t limit) (.tooDeep u limit)

/-- Two results that are errors alike, or values in the relation `R`. -/
inductive Agree {α : Type} (P : Token → Token → Prop) (R : α → α → Prop) :
    Except ParseError α → Except ParseError α → Prop where
  | error {e e' : ParseError} (h : e.Alike P e') : Agree P R (.error e) (.error e')
  | ok {a b : α} (h : R a b) : Agree P R (.ok a) (.ok b)

theorem Agree.map {α β : Type} {P : Token → Token → Prop} {R : α → α → Prop} {S : β → β → Prop}
    {x y : Except ParseError α} {f g : α → β} (h : Agree P R x y)
    (hfg : ∀ a b, R a b → S (f a) (g b)) :
  Agree P S (x.map f) (y.map g)
  := by
  cases h with
  | error h => exact .error h
  | ok h => exact .ok (hfg _ _ h)

/-! ### States -/

/-- The comparison with all positions zero. -/
def Pending.unplaced (w : Pending) : Pending :=
  ⟨w.left.unplaced, w.op, 0⟩

namespace Frame

/-- The group with all positions zero. -/
def unplaced (f : Frame) : Frame :=
  { f with
    disjuncts := f.disjuncts.map .unplaced, conjuncts := f.conjuncts.map .unplaced
    pending? := f.pending?.map .unplaced }

theorem depth_unplaced (f : Frame) :
  f.unplaced.depth = f.depth
  := rfl

theorem attach_unplaced (f : Frame) (e : Expr) :
  (f.attach e).unplaced = f.unplaced.attach e.unplaced
  := by
  rw [attach, attach, unplaced]
  cases f.pending? with
  | none => rfl
  | some w => rw [attachTo, Expr.unplaced_binary, Option.map_some, Pending.unplaced, attachTo]

theorem conjunction_unplaced (f : Frame) (e : Expr) :
  (f.conjunction e).unplaced = f.unplaced.conjunction e.unplaced
  := by
  simp [conjunction, Expr.unplaced_join, unplaced]

theorem expression_unplaced (f : Frame) (e : Expr) :
  (f.expression e).unplaced = f.unplaced.expression e.unplaced
  := by
  rw [expression, Expr.unplaced_join, List.map_append, List.map_reverse, List.map_singleton,
    conjunction_unplaced]
  rfl

theorem afterOperator_unplaced (f : Frame) (e : Expr) (op : Operator) (position : Nat) :
  (f.afterOperator e op position).unplaced = f.unplaced.afterOperator e.unplaced op 0
  := rfl

theorem afterAnd_unplaced (f : Frame) (e : Expr) :
  (f.afterAnd e).unplaced = f.unplaced.afterAnd e.unplaced
  := rfl

theorem afterOr_unplaced (f : Frame) (e : Expr) :
  (f.afterOr e).unplaced = f.unplaced.afterOr e.unplaced
  := by
  simp only [afterOr, unplaced, List.map_cons, conjunction_unplaced]
  rfl

end Frame

/-- The state with all positions zero. -/
def State.unplaced : State → State
  | .due f outer => .due f.unplaced (outer.map .unplaced)
  | .read e f outer => .read e.unplaced f.unplaced (outer.map .unplaced)

/-! ### Moves -/

namespace Rules

variable {r : Rules} {P : Token → Token → Prop} {t u : Token} {s s' : State}

/-- Tokens that are alike stand for operands that are equal up to positions, or for none. -/
theorem operand?_alike (h : t.Alike u) (hP : P t u) :
  Option.Rel (Agree P fun e e' => e.unplaced = e'.unplaced) (r.operand? t) (r.operand? u)
  := by
  rw [operand?, operand?, ← h.kind]
  cases hk : t.kind with
  | identifier =>
    simp only [column, ← h.lexeme hk]
    split
    · exact .some (.ok (by simp))
    · exact .some (.error (.unknownColumn hP _))
  | number | string =>
    rw [h.literal]
    exact .some (.ok rfl)
  | trueWord | falseWord | nullWord => exact .some (.ok rfl)
  | _ => exact .none

theorem openGroup_alike {f g : Frame} {outer outer' : List Frame} (hP : P t u)
    (hf : f.unplaced = g.unplaced) (houter : outer.map Frame.unplaced = outer'.map .unplaced) :
  Agree P (fun s s' => s.unplaced = s'.unplaced) (r.openGroup t f outer) (r.openGroup u g outer')
  := by
  have hdepth : f.depth = g.depth := by rw [← f.depth_unplaced, hf, g.depth_unplaced]
  rw [openGroup, openGroup, hdepth]
  split
  · exact .error (.tooDeep hP _)
  · exact .ok (by simp only [State.unplaced, List.map_cons, hf, houter])

/-- Where an operand is due, alike tokens are moved over alike. -/
theorem advance?_due_alike {f g : Frame} {outer outer' : List Frame} (h : t.Alike u) (hP : P t u)
    (hf : f.unplaced = g.unplaced) (houter : outer.map Frame.unplaced = outer'.map .unplaced) :
  Agree P (fun o o' => o.map State.unplaced = o'.map State.unplaced)
    (r.advance? (.due f outer) t) (r.advance? (.due g outer') u)
  := by
  rw [advance?, advance?, ← h.kind]
  split
  · exact (openGroup_alike hP hf houter).map fun s s' hs => by simp [hs]
  · have hoperands := operand?_alike (r := r) h hP
    generalize r.operand? t = x, r.operand? u = y at hoperands ⊢
    cases hoperands with
    | none => exact .ok rfl
    | some hoperand =>
      refine hoperand.map fun e e' he => ?_
      simp only [Option.map_some, State.unplaced, Frame.attach_unplaced, he, hf, houter]

/-- After a comparison, alike tokens are moved over alike. -/
theorem advance?_read_alike {e e' : Expr} {f g : Frame} {outer outer' : List Frame}
    (h : t.Alike u) (hP : P t u) (he : e.unplaced = e'.unplaced) (hf : f.unplaced = g.unplaced)
    (houter : outer.map Frame.unplaced = outer'.map .unplaced) :
  Agree P (fun o o' => o.map State.unplaced = o'.map State.unplaced)
    (r.advance? (.read e f outer) t) (r.advance? (.read e' g outer') u)
  := by
  have hdepth : f.depth = g.depth := by rw [← f.depth_unplaced, hf, g.depth_unplaced]
  simp only [advance?, ← h.kind, hdepth]
  cases hop : t.kind.operator? with
  | some op =>
    simp only
    split
    · exact .error (.tooDeep hP _)
    · apply Agree.ok
      simp only [Option.map_some, State.unplaced, Frame.afterOperator_unplaced, he, hf, houter]
  | none =>
    simp only
    cases hk : t.kind with
    | and =>
      apply Agree.ok
      simp only [Option.map_some, State.unplaced, Frame.afterAnd_unplaced, he, hf, houter]
    | or =>
      apply Agree.ok
      simp only [Option.map_some, State.unplaced, Frame.afterOr_unplaced, he, hf, houter]
    | rightParen =>
      cases outer with
      | nil =>
        obtain rfl := List.map_eq_nil_iff.mp houter.symm
        exact .ok rfl
      | cons o outer =>
        obtain ⟨o', outer', rfl, ho, houter⟩ := List.map_eq_cons_iff.mp houter.symm
        apply Agree.ok
        simp only [Option.map_some, State.unplaced, Frame.attach_unplaced, Expr.unplaced_group,
          Frame.expression_unplaced, he, hf, ho, houter]
    | _ => exact .ok rfl

/-- States that are equal up to positions move over tokens that are alike to such states. -/
theorem advance?_alike (hs : s.unplaced = s'.unplaced) (h : t.Alike u) (hP : P t u) :
  Agree P (fun o o' => o.map State.unplaced = o'.map State.unplaced) (r.advance? s t)
    (r.advance? s' u)
  := by
  match s, s' with
  | .due f outer, .due g outer' =>
    obtain ⟨hf, houter⟩ := State.due.inj hs
    apply advance?_due_alike h hP hf houter
  | .read e f outer, .read e' g outer' =>
    obtain ⟨he, hf, houter⟩ := State.read.inj hs
    apply advance?_read_alike h hP he hf houter
  | .due _ _, .read _ _ _ | .read _ _ _, .due _ _ => cases hs

/-- States that are equal up to positions are complete alike. -/
theorem stop_alike (hs : s.unplaced = s'.unplaced) (hP : P t u) :
  Agree P (fun e e' => e.unplaced = e'.unplaced) (stop s t) (stop s' u)
  := by
  match s, s' with
  | .due _ _, .due _ _ => exact .error (.expectedExpression hP)
  | .read _ _ (_ :: _), .read _ _ (_ :: _) => exact .error (.unclosedGroup hP)
  | .read e f [], .read e' g [] =>
    obtain ⟨he, hf, -⟩ := State.read.inj hs
    exact .ok (by rw [f.expression_unplaced, g.expression_unplaced, he, hf])
  | .read _ _ [], .read _ _ (_ :: _) | .read _ _ (_ :: _), .read _ _ []
  | .due _ _, .read _ _ _ | .read _ _ _, .due _ _ => simp [State.unplaced] at hs

/-- Runs over tokens that are alike end alike, before tokens that correspond. -/
theorem run_alike {last last' : Token} {ts us : List Token} (hs : s.unplaced = s'.unplaced)
    (h : List.Forall₂ (fun t u => t.Alike u ∧ P t u) ts us)
    (hlast : last.isEnd = last'.isEnd ∧ P last last') :
  Agree P (fun x y => x.1.unplaced = y.1.unplaced ∧ x.2.isEnd = y.2.isEnd ∧ P x.2 y.2)
    (r.run last s ts) (r.run last' s' us)
  := by
  induction h generalizing s s' with
  | nil => exact (stop_alike hs hlast.2).map fun e e' he => ⟨he, hlast⟩
  | @cons t u ts us htu _ ih =>
    -- Both runs fail, or both stop before this token, or both move over it.
    have hmove := advance?_alike (r := r) hs htu.1 htu.2
    rw [run, run]
    generalize r.advance? s t = x, r.advance? s' u = y at hmove ⊢
    cases hmove with
    | error he => exact .error he
    | @ok o o' ho =>
      cases o with
      | none =>
        obtain rfl := Option.map_eq_none_iff.mp ho.symm
        exact (stop_alike hs htu.2).map fun e e' he => ⟨he, htu.1.isEnd_eq, htu.2⟩
      | some s =>
        obtain ⟨s', rfl, hs'⟩ := Option.map_eq_some_iff.mp ho.symm
        exact ih hs'.symm

end Rules

/-! ### Readings -/

/-- Readings agree as their runs do, provided that the two lists start alike. -/
theorem parse_agree {P : Token → Token → Prop} {R : Expr → Expr → Prop} {ts us : List Token}
    {columns : List String} {p : Policy}
    (hhead : (ts.head?.getD (endOf ts)).isEnd = (us.head?.getD (endOf us)).isEnd)
    (hrun : Agree P (fun x y => R x.1 y.1 ∧ x.2.isEnd = y.2.isEnd ∧ P x.2 y.2)
      ((rulesOf columns p).run (endOf ts) .start ts)
      ((rulesOf columns p).run (endOf us) .start us)) :
  Agree P R (parse ts columns p) (parse us columns p)
  := by
  by_cases hempty : (ts.head?.getD (endOf ts)).isEnd = true
  · rw [parse, parse, if_pos hempty, if_pos (hhead ▸ hempty)]
    exact .error .empty
  · have hts := Bool.eq_false_iff.mpr hempty
    rw [parse_eq hts, parse_eq (hhead ▸ hts)]
    generalize (rulesOf columns p).run (endOf ts) .start ts = x,
      (rulesOf columns p).run (endOf us) .start us = y at hrun ⊢
    cases hrun with
    | error he => exact .error he
    | @ok x y hxy =>
      obtain ⟨hexpr, hend, hnext⟩ := hxy
      simp only [← hend]
      split
      · exact .ok hexpr
      · exact .error (.trailingInput hnext)

/-- Lists of tokens that are alike are read as trees that are equal up to positions, or fail with
errors of one kind at tokens that correspond. -/
theorem parse_alike {P : Token → Token → Prop} {ts us : List Token} (columns : List String)
    (p : Policy) (h : List.Forall₂ (fun t u => t.Alike u ∧ P t u) ts us)
    (hlast : P (endOf ts) (endOf us)) :
  Agree P (fun e e' => e.unplaced = e'.unplaced) (parse ts columns p) (parse us columns p)
  := by
  apply parse_agree
  · cases h with
    | nil => rfl
    | cons htu _ => apply htu.1.isEnd_eq
  · have hstart : State.start.unplaced = State.start.unplaced := rfl
    have hends : (endOf ts).isEnd = (endOf us).isEnd ∧ P (endOf ts) (endOf us) := ⟨rfl, hlast⟩
    apply Rules.run_alike hstart h hends

/-- Tokens that are equal but for their places are alike. -/
theorem forall₂_alike_of_unplaced {ts us : List Token}
    (h : ts.map Token.unplaced = us.map Token.unplaced) :
  List.Forall₂ Token.Alike ts us
  := by
  rw [← List.forall₂_eq_eq_eq, List.forall₂_map_left_iff, List.forall₂_map_right_iff] at h
  refine h.imp fun t u heq => ?_
  obtain ⟨hkind, hlexeme, hliteral, -⟩ := Token.mk.inj heq
  exact ⟨hkind, hliteral, fun _ => hlexeme⟩

/-- What is read from tokens is read, up to positions, from the same tokens at other places. -/
theorem parse_of_unplaced {ts us : List Token} {columns : List String} {p : Policy} {e : Expr}
    (h : ts.map Token.unplaced = us.map Token.unplaced) (hparse : parse ts columns p = .ok e) :
  ∃ e', parse us columns p = .ok e' ∧ e'.unplaced = e.unplaced
  := by
  have halike : List.Forall₂ (fun t u : Token => t.Alike u ∧ True) ts us :=
    (forall₂_alike_of_unplaced h).imp fun _ _ htu => ⟨htu, trivial⟩
  have hagree := parse_alike columns p halike trivial
  rw [hparse] at hagree
  generalize parse us columns p = y at hagree ⊢
  cases hagree with
  | ok he => exact ⟨_, rfl, he.symm⟩

end TableQuery.Filter
