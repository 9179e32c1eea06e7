import TableQuery.Proofs.Filter.Descent

/-!
# Levels of a descent

The calls of a reading by descent are nested: each was called by the procedure around it, at a depth
that this procedure holds while it waits (`Descent.Nested`), so only an operand that calls a
disjunction adds a level.  From what holds where a call stands (`Descent.Call.Fits`), one induction
over the steps gives that the depth keeps within its limit, that no level is closed that was not
opened, that a call that returns has passed a token and left the depth as it was, and that there are
at most as many disjunctions under way as there are levels, and one more
(`Descent.depth_and_progress`).
-/

namespace TableQuery.Filter.Descent

/-! ### Nested calls -/

/-- The procedures, one for each line of the grammar. -/
inductive Procedure where
  | disjunction
  | conjunction
  | comparison
  | operand
  deriving DecidableEq

/-- The procedure that a procedure calls. -/
def Procedure.callee : Procedure → Procedure
  | disjunction => conjunction
  | conjunction => comparison
  | comparison => operand
  | operand => disjunction

/-- The procedure of a task. -/
def Task.procedure : Task → Procedure
  | disjunction _ => .disjunction
  | conjunction _ => .conjunction
  | comparison _ _ => .comparison
  | operand => .operand

theorem Task.procedure_callee (task : Task) :
  task.callee.procedure = task.procedure.callee
  := by
  cases task <;> rfl

/-- The call holds a depth while it waits for a call that it has made: that of its entry, in a group
one level more, and along a chain of comparisons any further ones. -/
def Call.Holds (a : Call) (depth : Nat) : Prop :=
  match a.task with
  | .disjunction _ | .conjunction _ => depth = a.entry.depth
  | .comparison noted _ => noted = a.entry.depth ∧ a.entry.depth ≤ depth
  | .operand => depth = a.entry.depth + 1

/-- Each call was made by the one around it, which held the depth of its entry. -/
inductive Nested (limit : Nat) : List Call → Prop where
  | nil : Nested limit []
  | outermost {a : Call} (ha : a.task.procedure = .disjunction) : Nested limit [a]
  | call {a b : Call} {outer : List Call} (h : Nested limit (b :: outer))
    (hcall : a.task.procedure = b.task.procedure.callee) (hholds : b.Holds a.entry.depth)
    (hpassed : b.entry.passed ≤ a.entry.passed) (hlimit : a.entry.depth ≤ limit) :
    Nested limit (a :: b :: outer)

variable {limit : Nat} {a b : Call} {outer calls : List Call} {g : Registers} {task : Task}

/-- A call may go on with other values of its variables. -/
theorem Nested.withTask (h : Nested limit (a :: outer))
    (htask : task.procedure = a.task.procedure) :
  Nested limit ({ a with task } :: outer)
  := by
  cases h with
  | outermost ha => exact .outermost (htask.trans ha)
  | call h hcall hholds hpassed hlimit => exact .call h (htask.trans hcall) hholds hpassed hlimit

theorem Nested.tail (h : Nested limit (a :: outer)) :
  Nested limit outer
  := by
  cases h with
  | outermost => exact .nil
  | call h => apply h

/-- The number of disjunctions among calls. -/
def disjunctions (calls : List Call) : Nat :=
  calls.countP fun a => a.task.procedure = .disjunction

theorem disjunctions_cons (a : Call) (outer : List Call) :
  disjunctions (a :: outer)
    = disjunctions outer + if a.task.procedure = .disjunction then 1 else 0
  := by
  simp [disjunctions, List.countP_cons]

/-- The depth that a call holds is at least that of its entry, and in a group one more. -/
theorem Call.Holds.le {depth : Nat} (h : a.Holds depth) :
  a.entry.depth + (if a.task.procedure = .operand then 1 else 0) ≤ depth
  := by
  rw [Holds] at h
  split at h
  all_goals simp [Task.procedure, *]

/-- Only an operand calls a disjunction. -/
theorem Procedure.callee_eq_disjunction_iff {p : Procedure} :
  p.callee = .disjunction ↔ p = .operand
  := by
  cases p <;> simp [callee]

/-- A call and those around it have at most one disjunction more than the depth of its entry. -/
theorem Nested.disjunctions_le (h : Nested limit (a :: outer)) :
  disjunctions (a :: outer) ≤ a.entry.depth + 1
  := by
  induction outer generalizing a with
  | nil =>
    rw [disjunctions_cons]
    simp only [disjunctions, List.countP_nil]
    split <;> omega
  | cons b outer ih =>
    cases h with
    | call h hcall hholds hpassed hlimit =>
      have hinner := ih h
      have hdepth := hholds.le
      rw [disjunctions_cons, hcall]
      simp only [Procedure.callee_eq_disjunction_iff]
      omega

/-! ### What holds in a reading -/

/-- What holds of the registers where a call stands.  Once it has made a call it has passed a token,
and where it returns the depth is that of its entry. -/
def Call.Fits (a : Call) (g : Registers) : Point → Prop
  | .enter => g = a.entry
  | .descend _ => a.entry.passed < g.passed ∧ a.Holds (g.depth + 1)
  | .resume _ => a.entry.passed < g.passed ∧ a.Holds g.depth
  | .ascend _ => a.entry.passed < g.passed ∧ g.depth = a.entry.depth + 1
  | .leave _ => a.entry.passed < g.passed ∧ g.depth = a.entry.depth
  | .fail _ => True
  | .underflow => False

/-- The calls of a reading are nested, and the innermost one fits the registers, which are within
the limit of depth and the tokens. -/
structure Config.IsSound (limit : Nat) (tokens : List Token) (c : Config) : Prop where
  depth_le : c.registers.depth ≤ limit
  passed_le : c.registers.passed ≤ tokens.length
  nested : Nested limit c.calls
  fits : ∀ a ∈ c.calls.head?, a.Fits c.registers c.point
  ne_underflow : c.point ≠ .underflow

variable {tokens : List Token} {t : Token} {e : Expr} {r : Rules}

theorem Registers.passed_le_pass (g : Registers) (tokens : List Token) :
  g.passed ≤ (g.pass tokens).passed
  := by
  rw [pass]
  split
  · apply Nat.le_succ
  · apply Nat.le_refl

@[simp]
theorem Registers.depth_pass (g : Registers) (tokens : List Token) :
  (g.pass tokens).depth = g.depth
  := by
  rw [pass]
  split <;> rfl

theorem Registers.pass_le (h : g.passed ≤ tokens.length) :
  (g.pass tokens).passed ≤ tokens.length
  := by
  rw [pass]
  split
  · next hlt => apply hlt
  · apply h

/-- The end of the tokens is the only thing that is not passed. -/
theorem Registers.lt_pass (h : (g.peek tokens).isEnd = false) :
  g.passed < (g.pass tokens).passed
  := by
  have hlt : g.passed < tokens.length := by
    apply Nat.lt_of_not_le
    intro hle
    rw [peek, List.getElem?_eq_none hle, Option.getD_none, isEnd_endOf] at h
    cases h
  rw [pass, if_pos hlt]
  apply Nat.lt_succ_self

/-- A call that holds the depth can go on and make a call. -/
theorem isSound_calling (hdepth : g.depth ≤ limit) (hpassed : g.passed ≤ tokens.length)
    (hnested : Nested limit (a :: outer)) (htask : task.procedure = a.task.procedure)
    (hentry : a.entry.passed ≤ g.passed) (hholds : Call.Holds { a with task } g.depth) :
  (Config.calling g a task outer).IsSound limit tokens where
  depth_le := hdepth
  passed_le := hpassed
  nested := .call (hnested.withTask htask) task.procedure_callee hholds hentry hdepth
  fits _ ha := by
    cases ha
    rfl
  ne_underflow := nofun

theorem isSound_at_iff {point : Point} :
  (Config.at g point a outer).IsSound limit tokens
    ↔ g.depth ≤ limit ∧ g.passed ≤ tokens.length ∧ Nested limit (a :: outer) ∧ a.Fits g point
  := by
  constructor
  · intro h
    exact ⟨h.depth_le, h.passed_le, h.nested, h.fits a rfl⟩
  · rintro ⟨hdepth, hpassed, hnested, hfits⟩
    refine ⟨hdepth, hpassed, hnested, ?_, ?_⟩
    · intro b hb
      cases hb
      apply hfits
    · rintro rfl
      apply hfits

/-- Where an operand takes a token, it has passed it unless it fails. -/
theorem fits_operandPoint (r : Rules) (tokens : List Token) (ha : a.task = .operand) :
  a.Fits (a.entry.pass tokens) (operandPoint r (a.entry.peek tokens))
  := by
  rw [operandPoint]
  split
  · next hkind =>
    have hlt : a.entry.passed < (a.entry.pass tokens).passed :=
      Registers.lt_pass (by simp [Token.isEnd, hkind])
    refine ⟨hlt, ?_⟩
    simp [Call.Holds, ha]
  · split
    · next hoperand =>
      have hlt : a.entry.passed < (a.entry.pass tokens).passed := by
        apply Registers.lt_pass
        apply Bool.eq_false_iff.mpr
        intro hend
        have hkind : (a.entry.peek tokens).kind = .endOfInput := by simpa [Token.isEnd] using hend
        simp [Rules.operand?, hkind] at hoperand
      exact ⟨hlt, a.entry.depth_pass tokens⟩
    · trivial
    · trivial

/-- The first step of a call. -/
theorem isSound_enter (h : (Config.at g .enter a outer).IsSound r.limit tokens) :
  (a.enter r tokens g outer).IsSound r.limit tokens
  := by
  obtain ⟨hdepth, hpassed, hnested, rfl⟩ := isSound_at_iff.mp h
  rw [Call.enter]
  split
  · next noted pending? htask =>
    apply isSound_calling hdepth hpassed hnested (by rw [htask]; rfl) (Nat.le_refl _)
    exact ⟨rfl, Nat.le_refl _⟩
  · next htask =>
    have hfits := fits_operandPoint r tokens htask
    have hdepth' : (a.entry.pass tokens).depth ≤ r.limit := by rwa [Registers.depth_pass]
    apply isSound_at_iff.mpr ⟨hdepth', Registers.pass_le hpassed, hnested, hfits⟩
  · next hcomparison hoperand =>
    apply isSound_calling hdepth hpassed hnested rfl (Nat.le_refl _)
    -- What is left are the two procedures that keep the depth of their entry.
    rw [Call.Holds]
    split
    · rfl
    · rfl
    · next htask => exact absurd htask (hcomparison _ _)
    · next htask => exact absurd htask hoperand

/-- A level is opened within the limit. -/
theorem isSound_descend (h : (Config.at g (.descend t) a outer).IsSound r.limit tokens) :
  (a.descend r g t outer).IsSound r.limit tokens
  := by
  obtain ⟨hdepth, hpassed, hnested, hlt, hholds⟩ := isSound_at_iff.mp h
  rw [Call.descend]
  split
  · exact isSound_at_iff.mpr ⟨hdepth, hpassed, hnested, trivial⟩
  · next hlimit =>
    have hdepth' : g.depth + 1 ≤ r.limit := Nat.lt_of_not_le hlimit
    exact isSound_calling (g := ⟨g.passed, g.depth + 1⟩) hdepth' hpassed hnested rfl
      (Nat.le_of_lt hlt) hholds

/-- A call goes on with the result of a call that it has made. -/
theorem isSound_resume (h : (Config.at g (.resume e) a outer).IsSound r.limit tokens) :
  (a.resume tokens g e outer).IsSound r.limit tokens
  := by
  obtain ⟨hdepth, hpassed, hnested, hlt, hholds⟩ := isSound_at_iff.mp h
  have hlt' : a.entry.passed < (g.pass tokens).passed :=
    Nat.lt_of_lt_of_le hlt (g.passed_le_pass tokens)
  have hdepth' : (g.pass tokens).depth ≤ r.limit := by rwa [Registers.depth_pass]
  have hpassed' := Registers.pass_le hpassed
  rw [Call.resume]
  rw [Call.Holds] at hholds
  split
  · next es htask =>
    rw [htask] at hholds
    split
    · apply isSound_calling hdepth' hpassed' hnested (by rw [htask]; rfl) (Nat.le_of_lt hlt')
      rw [Registers.depth_pass]
      apply hholds
    · exact isSound_at_iff.mpr ⟨hdepth, hpassed, hnested, hlt, hholds⟩
  · next es htask =>
    rw [htask] at hholds
    split
    · apply isSound_calling hdepth' hpassed' hnested (by rw [htask]; rfl) (Nat.le_of_lt hlt')
      rw [Registers.depth_pass]
      apply hholds
    · exact isSound_at_iff.mpr ⟨hdepth, hpassed, hnested, hlt, hholds⟩
  · next noted pending? htask =>
    rw [htask] at hholds
    obtain ⟨rfl, hle⟩ := hholds
    dsimp only
    split
    · refine isSound_at_iff.mpr ⟨hdepth', hpassed', hnested.withTask ?_, hlt', rfl, ?_⟩
      · rw [htask]
        rfl
      · rw [Registers.depth_pass]
        apply Nat.le_succ_of_le hle
    · exact isSound_at_iff.mpr ⟨Nat.le_trans hle hdepth, hpassed, hnested, hlt, rfl⟩
  · next htask =>
    rw [htask] at hholds
    split
    · refine isSound_at_iff.mpr ⟨hdepth', hpassed', hnested, hlt', ?_⟩
      rw [Registers.depth_pass]
      apply hholds
    · exact isSound_at_iff.mpr ⟨hdepth, hpassed, hnested, trivial⟩

/-- A level is closed that was opened. -/
theorem isSound_ascend (h : (Config.at g (.ascend e) a outer).IsSound r.limit tokens) :
  (a.ascend g e outer).IsSound r.limit tokens
  := by
  obtain ⟨hdepth, hpassed, hnested, hlt, hopen⟩ := isSound_at_iff.mp h
  rw [Call.ascend, if_neg (by omega)]
  refine isSound_at_iff.mpr ⟨Nat.le_trans (Nat.sub_le _ _) hdepth, hpassed, hnested, hlt, ?_⟩
  rw [hopen, Nat.add_sub_cancel]

/-- A result goes to the call that waits for it. -/
theorem isSound_leave (h : (Config.at g (.leave e) a outer).IsSound r.limit tokens) :
  (⟨g, .resume e, outer⟩ : Config).IsSound r.limit tokens
  := by
  obtain ⟨hdepth, hpassed, hnested, hlt, hback⟩ := isSound_at_iff.mp h
  refine ⟨hdepth, hpassed, hnested.tail, ?_, nofun⟩
  intro b hb
  cases hnested with
  | outermost => cases hb
  | call h hcall hholds hentry hlimit =>
    cases hb
    refine ⟨Nat.lt_of_le_of_lt hentry hlt, ?_⟩
    rw [hback]
    apply hholds

variable {c : Config}

/-- A step keeps a reading sound. -/
theorem Config.IsSound.step (h : c.IsSound r.limit tokens) :
  (step r tokens c).IsSound r.limit tokens
  := by
  obtain ⟨g, point, calls⟩ := c
  cases calls with
  | nil => apply h
  | cons a outer =>
    cases point with
    | enter => apply isSound_enter h
    | descend t => apply isSound_descend h
    | resume e => apply isSound_resume h
    | ascend e => apply isSound_ascend h
    | leave e => apply isSound_leave h
    | fail err => exact ⟨h.depth_le, h.passed_le, h.nested.tail, fun _ _ => trivial, nofun⟩
    | underflow => apply h

theorem isSound_start (limit : Nat) (tokens : List Token) :
  start.IsSound limit tokens where
  depth_le := Nat.zero_le _
  passed_le := Nat.zero_le _
  nested := .outermost rfl
  fits _ ha := by
    cases ha
    rfl
  ne_underflow := nofun

/-- A reading is sound after any number of steps. -/
theorem isSound_after (r : Rules) (tokens : List Token) (n : Nat) :
  (after r tokens n).IsSound r.limit tokens
  := by
  induction n with
  | zero => apply isSound_start
  | succ n ih =>
    rw [after, Function.iterate_succ_apply']
    apply ih.step

/-! ### Depth and progress -/

/-- What a reading keeps to: the limit of depth and the tokens, one more disjunction under way than
the limit at most, no level closed that was not opened, and where a call returns a result, the depth
of its entry and a token passed since. -/
structure Config.IsDisciplined (limit : Nat) (tokens : List Token) (c : Config) : Prop where
  depth_le : c.registers.depth ≤ limit
  ne_underflow : c.point ≠ .underflow
  passed_le : c.registers.passed ≤ tokens.length
  disjunctions_le : disjunctions c.calls ≤ limit + 1
  balanced : ∀ a outer e, c.calls = a :: outer → c.point = .leave e →
    c.registers.depth = a.entry.depth ∧ a.entry.passed < c.registers.passed

/-- Nested calls within a limit of depth have at most one disjunction more. -/
theorem Nested.disjunctions_le_limit (h : Nested limit calls) :
  disjunctions calls ≤ limit + 1
  := by
  cases h with
  | nil => apply Nat.zero_le
  | @outermost a ha =>
    rw [disjunctions_cons, if_pos ha]
    apply Nat.le_add_left
  | @call a b outer h hcall hholds hpassed hlimit =>
    have hcount : disjunctions (a :: b :: outer) ≤ a.entry.depth + 1 :=
      (h.call hcall hholds hpassed hlimit).disjunctions_le
    apply Nat.le_trans hcount
    apply Nat.succ_le_succ hlimit

theorem Config.IsSound.isDisciplined (h : c.IsSound limit tokens) :
  c.IsDisciplined limit tokens where
  depth_le := h.depth_le
  ne_underflow := h.ne_underflow
  passed_le := h.passed_le
  disjunctions_le := h.nested.disjunctions_le_limit
  balanced a outer e hcalls hpoint := by
    have hfits := h.fits a (by rw [hcalls]; rfl)
    rw [hpoint] at hfits
    exact ⟨hfits.2, hfits.1⟩

/-- A reading by descent, of any tokens under any columns and limit, is disciplined at every point,
and it ends with what `parse` gives. -/
theorem depth_and_progress (tokens : List Token) (columns : List String) (p : Policy) :
  (∀ n, (after (rulesOf columns p) tokens n).IsDisciplined p.maxDepth.toNat tokens) ∧
    ∃ n, ∀ k, parse? tokens columns p (n + k) = some (parse tokens columns p)
  := ⟨fun n => (isSound_after (rulesOf columns p) tokens n).isDisciplined,
    exists_parse?_eq tokens columns p⟩

end TableQuery.Filter.Descent
