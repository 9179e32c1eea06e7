import Mathlib.Logic.Relation
import Mathlib.Logic.Function.Iterate
import TableQuery.Proofs.Filter.Acceptance

/-!
# Reading by recursive descent

Here each line of the grammar of expressions is a procedure.  The first three call the one for the
line below, and an operand calls the first again for what stands in parentheses.  They share two
registers, the number of tokens passed and the depth; a comparison notes the depth when it begins
and sets it back when it ends, and an operand takes back the level of its group.  A `Config` is the
registers, the calls that have not ended, and what comes next in the innermost one, which
`Descent.step` does.

This is another way to read what `parse` reads (`Descent.exists_parse?_eq`): the open groups of a
state are the calls of a configuration (`Descent.Shows`), and a move of the state is a few steps.
-/

namespace TableQuery.Filter

namespace Descent

/-! ### Procedures -/

/-- The procedures with their variables: the operands read so far, last first, or the depth noted
at the start of a comparison and the part of it that waits for an operand. -/
inductive Task where
  | disjunction (operands : List Expr)
  | conjunction (operands : List Expr)
  | comparison (noted : Nat) (pending? : Option Pending)
  | operand

/-- The procedure that a procedure calls, before it has done anything. -/
def Task.callee : Task → Task
  | disjunction _ => conjunction []
  | conjunction _ => comparison 0 none
  | comparison _ _ => operand
  | operand => disjunction []

/-- What the procedures share: the number of tokens passed, and the depth. -/
structure Registers where
  passed : Nat
  depth : Nat

namespace Registers

/-- The token that comes next. -/
def peek (g : Registers) (tokens : List Token) : Token :=
  tokens[g.passed]?.getD (endOf tokens)

/-- The registers past the next token.  The end of the tokens is not passed. -/
def pass (g : Registers) (tokens : List Token) : Registers :=
  if g.passed < tokens.length then { g with passed := g.passed + 1 } else g

end Registers

/-- A call that has not ended, and the registers when it was made. -/
structure Call where
  task : Task
  entry : Registers

/-- What comes next in the innermost call: its first step, the level that it opens at a token, the
result of a call it has made, the level that it closes around its result, or its end.  A level that
is closed where there is none is an underflow. -/
inductive Point where
  | enter
  | descend (t : Token)
  | resume (e : Expr)
  | ascend (e : Expr)
  | leave (e : Expr)
  | fail (err : ParseError)
  | underflow

/-- A reading under way, its calls innermost first. -/
structure Config where
  registers : Registers
  point : Point
  calls : List Call

/-- The reading in which `a` goes on as `task` and has just called the next procedure. -/
def Config.calling (g : Registers) (a : Call) (task : Task) (outer : List Call) : Config :=
  ⟨g, .enter, ⟨task.callee, g⟩ :: { a with task } :: outer⟩

/-- The reading in which the innermost call has got to a point. -/
def Config.at (g : Registers) (point : Point) (a : Call) (outer : List Call) : Config :=
  ⟨g, point, a :: outer⟩

/-- What an operand does at its token. -/
def operandPoint (r : Rules) (t : Token) : Point :=
  if t.kind = .leftParen then .descend t
  else
    match r.operand? t with
    | some (.ok e) => .leave e
    | some (.error err) => .fail err
    | none => .fail (.expectedExpression t)

namespace Call

/-- The first step of a call. -/
def enter (r : Rules) (tokens : List Token) (g : Registers) (a : Call) (outer : List Call) :
    Config :=
  match a.task with
  | .comparison _ pending? => .calling g a (.comparison g.depth pending?) outer
  | .operand => .at (g.pass tokens) (operandPoint r (g.peek tokens)) a outer
  | task => .calling g a task outer

/-- A call opens a level at a token and calls the next procedure in it. -/
def descend (r : Rules) (g : Registers) (t : Token) (a : Call) (outer : List Call) : Config :=
  if r.limit ≤ g.depth then .at g (.fail (.tooDeep t r.limit)) a outer
  else .calling { g with depth := g.depth + 1 } a a.task outer

/-- A call goes on with the result of a call that it has made. -/
def resume (tokens : List Token) (g : Registers) (e : Expr) (a : Call) (outer : List Call) :
    Config :=
  let t := g.peek tokens
  match a.task with
  | .disjunction es =>
    if t.kind = .or then .calling (g.pass tokens) a (.disjunction (e :: es)) outer
    else .at g (.leave (.join .or (es.reverse ++ [e]))) a outer
  | .conjunction es =>
    if t.kind = .and then .calling (g.pass tokens) a (.conjunction (e :: es)) outer
    else .at g (.leave (.join .and (es.reverse ++ [e]))) a outer
  | .comparison noted pending? =>
    let left := attachTo pending? e
    match t.kind.operator? with
    | some op =>
      .at (g.pass tokens) (.descend t)
        { a with task := .comparison noted (some ⟨left, op, t.position⟩) } outer
    | none => .at { g with depth := noted } (.leave left) a outer
  | .operand =>
    if t.kind = .rightParen then .at (g.pass tokens) (.ascend e) a outer
    else .at g (.fail (.unclosedGroup t)) a outer

/-- A call closes its level around its result. -/
def ascend (g : Registers) (e : Expr) (a : Call) (outer : List Call) : Config :=
  if g.depth = 0 then .at g .underflow a outer
  else .at { g with depth := g.depth - 1 } (.leave (.group e)) a outer

end Call

/-- The next step of a reading, if a call has not ended.  A result goes to the call around, and an
error ends that too. -/
def step (r : Rules) (tokens : List Token) (c : Config) : Config :=
  match c.calls with
  | [] => c
  | a :: outer =>
    match c.point with
    | .enter => a.enter r tokens c.registers outer
    | .descend t => a.descend r c.registers t outer
    | .resume e => a.resume tokens c.registers e outer
    | .ascend e => a.ascend c.registers e outer
    | .leave e => ⟨c.registers, .resume e, outer⟩
    | .fail err => ⟨c.registers, .fail err, outer⟩
    | .underflow => c

/-- The reading that begins. -/
def start : Config :=
  ⟨⟨0, 0⟩, .enter, [⟨.disjunction [], ⟨0, 0⟩⟩]⟩

/-- The reading after `n` steps. -/
def after (r : Rules) (tokens : List Token) (n : Nat) : Config :=
  (step r tokens)^[n] start

/-- What a reading has given, once all calls have ended: an expression and the token after it, or an
error. -/
def outcome? (tokens : List Token) (c : Config) : Option (Except ParseError (Expr × Token)) :=
  match c.calls, c.point with
  | [], .resume e => some (.ok (e, c.registers.peek tokens))
  | [], .fail err => some (.error err)
  | _, _ => none

/-- The filter that tokens spell by descent, if it is known after `n` steps. -/
def parse? (tokens : List Token) (columns : List String) (p : Policy) (n : Nat) :
    Option (Except ParseError Expr) :=
  if (start.registers.peek tokens).isEnd then some (.error .empty)
  else
    (outcome? tokens (after (rulesOf columns p) tokens n)).map fun result => do
      let (e, next) ← result
      if next.isEnd || p.allowsTrailing then .ok e else .error (.trailingInput next)

/-! ### Steps -/

variable {r : Rules} {tokens rest : List Token} {g : Registers} {calls outer : List Call}
  {a : Call} {e : Expr} {t : Token}

/-- A reading gets to another one. -/
abbrev Reaches (r : Rules) (tokens : List Token) : Config → Config → Prop :=
  Relation.ReflTransGen fun c c' => step r tokens c = c'

/-- A reading that gets somewhere does so in a number of steps. -/
theorem exists_iterate_of_reaches {c c' : Config} (h : Reaches r tokens c c') :
  ∃ n, (step r tokens)^[n] c = c'
  := by
  induction h with
  | refl => exact ⟨0, rfl⟩
  | tail _ hstep ih =>
    obtain ⟨n, hn⟩ := ih
    exact ⟨n + 1, by rw [Function.iterate_succ_apply', hn, hstep]⟩

/-- An error ends all calls. -/
theorem reaches_fail (g : Registers) (err : ParseError) (calls : List Call) :
  Reaches r tokens ⟨g, .fail err, calls⟩ ⟨g, .fail err, []⟩
  := by
  induction calls with
  | nil => exact .refl
  | cons a outer ih => exact .head rfl ih

/-- A conjunction begins with the first operand of its first comparison. -/
theorem reaches_conjunction_start (r : Rules) (tokens : List Token) (g : Registers)
    (outer : List Call) :
  Reaches r tokens ⟨g, .enter, ⟨.conjunction [], g⟩ :: outer⟩
    ⟨g, .enter, ⟨.operand, g⟩ :: ⟨.comparison g.depth none, g⟩ :: ⟨.conjunction [], g⟩ :: outer⟩
  := .head rfl (.single rfl)

/-- A disjunction begins with the first operand of its first conjunction. -/
theorem reaches_disjunction_start (r : Rules) (tokens : List Token) (g : Registers)
    (outer : List Call) :
  Reaches r tokens ⟨g, .enter, ⟨.disjunction [], g⟩ :: outer⟩
    ⟨g, .enter, ⟨.operand, g⟩ :: ⟨.comparison g.depth none, g⟩ :: ⟨.conjunction [], g⟩ ::
      ⟨.disjunction [], g⟩ :: outer⟩
  := .head rfl (reaches_conjunction_start r tokens g _)

/-- A comparison ends before a token that is no operator, and sets the depth back. -/
theorem reaches_comparison_end {noted : Nat} {pending? : Option Pending} {entry : Registers}
    (h : (g.peek tokens).kind.operator? = none) :
  Reaches r tokens ⟨g, .resume e, ⟨.comparison noted pending?, entry⟩ :: outer⟩
    ⟨{ g with depth := noted }, .resume (attachTo pending? e), outer⟩
  := by
  apply Relation.ReflTransGen.head (b := Config.at { g with depth := noted }
    (.leave (attachTo pending? e)) ⟨.comparison noted pending?, entry⟩ outer)
  · simp only [step, Call.resume, h]
  · exact .single rfl

/-- A conjunction ends before a token other than AND. -/
theorem reaches_conjunction_end {es : List Expr} {entry : Registers}
    (h : (g.peek tokens).kind ≠ .and) :
  Reaches r tokens ⟨g, .resume e, ⟨.conjunction es, entry⟩ :: outer⟩
    ⟨g, .resume (.join .and (es.reverse ++ [e])), outer⟩
  := by
  apply Relation.ReflTransGen.head (b := Config.at g (.leave (.join .and (es.reverse ++ [e])))
    ⟨.conjunction es, entry⟩ outer)
  · simp only [step, Call.resume, if_neg h]
  · exact .single rfl

/-- A disjunction ends before a token other than OR. -/
theorem reaches_disjunction_end {es : List Expr} {entry : Registers}
    (h : (g.peek tokens).kind ≠ .or) :
  Reaches r tokens ⟨g, .resume e, ⟨.disjunction es, entry⟩ :: outer⟩
    ⟨g, .resume (.join .or (es.reverse ++ [e])), outer⟩
  := by
  apply Relation.ReflTransGen.head (b := Config.at g (.leave (.join .or (es.reverse ++ [e])))
    ⟨.disjunction es, entry⟩ outer)
  · simp only [step, Call.resume, if_neg h]
  · exact .single rfl

/-! ### Steps over a token -/

theorem peek_of_drop {n depth : Nat} (h : tokens.drop n = rest) :
  Registers.peek ⟨n, depth⟩ tokens = rest.head?.getD (endOf tokens)
  := by
  rw [Registers.peek, ← h, List.head?_drop]

theorem pass_of_drop {n depth : Nat} (h : tokens.drop n = t :: rest) :
  Registers.pass ⟨n, depth⟩ tokens = ⟨n + 1, depth⟩
  := by
  have hlt : n < tokens.length := by
    apply Nat.lt_of_not_le
    intro hle
    rw [List.drop_of_length_le hle] at h
    cases h
  apply if_pos hlt

theorem drop_succ_of_drop {n : Nat} (h : tokens.drop n = t :: rest) :
  tokens.drop (n + 1) = rest
  := by
  rw [← List.tail_drop, h, List.tail_cons]

theorem operandPoint_of_leaf (h : Leaf t e) (hnames : NamesIn r.columns [t]) :
  operandPoint r t = .leave e
  := by
  have hoperand := Rules.operand?_eq_some_ok_iff.mpr ⟨h, hnames⟩
  have hkind : t.kind ≠ .leftParen := by
    intro hk
    simp [Rules.operand?, hk] at hoperand
  rw [operandPoint, if_neg hkind, hoperand]

section

variable {n depth : Nat} {entry : Registers} (hrest : tokens.drop n = t :: rest)
include hrest

/-- An operand takes the next token. -/
theorem reaches_of_operand {point : Point} (h : operandPoint r t = point) :
  Reaches r tokens ⟨⟨n, depth⟩, .enter, ⟨.operand, entry⟩ :: outer⟩
    ⟨⟨n + 1, depth⟩, point, ⟨.operand, entry⟩ :: outer⟩
  := by
  apply Relation.ReflTransGen.single
  simp only [step, Call.enter, peek_of_drop hrest, pass_of_drop hrest, ← h]
  rfl

/-- An operand that opens a group goes on with the first operand in it, a level deeper. -/
theorem reaches_group_start (ht : t.kind = .leftParen) (hdepth : depth < r.limit) :
  Reaches r tokens ⟨⟨n, depth⟩, .enter, ⟨.operand, entry⟩ :: outer⟩
    ⟨⟨n + 1, depth + 1⟩, .enter, ⟨.operand, ⟨n + 1, depth + 1⟩⟩ ::
      ⟨.comparison (depth + 1) none, ⟨n + 1, depth + 1⟩⟩ ::
      ⟨.conjunction [], ⟨n + 1, depth + 1⟩⟩ :: ⟨.disjunction [], ⟨n + 1, depth + 1⟩⟩ ::
      ⟨.operand, entry⟩ :: outer⟩
  := by
  have hpoint : operandPoint r t = .descend t := if_pos ht
  apply (reaches_of_operand hrest hpoint).trans
  refine .head (if_neg (Nat.not_le.mpr hdepth)) ?_
  apply reaches_disjunction_start

/-- A comparison goes on at an operator with its next operand, a level deeper. -/
theorem reaches_comparison_next {noted : Nat} {pending? : Option Pending} {op : Operator}
    (ht : t.kind.operator? = some op) (hdepth : depth < r.limit) :
  Reaches r tokens ⟨⟨n, depth⟩, .resume e, ⟨.comparison noted pending?, entry⟩ :: outer⟩
    ⟨⟨n + 1, depth + 1⟩, .enter, ⟨.operand, ⟨n + 1, depth + 1⟩⟩ ::
      ⟨.comparison noted (some ⟨attachTo pending? e, op, t.position⟩), entry⟩ :: outer⟩
  := by
  apply Relation.ReflTransGen.head (b := Config.at ⟨n + 1, depth⟩ (.descend t)
    ⟨.comparison noted (some ⟨attachTo pending? e, op, t.position⟩), entry⟩ outer)
  · simp only [step, Call.resume, peek_of_drop hrest, pass_of_drop hrest, List.head?_cons,
      Option.getD_some, ht]
  · exact .single (if_neg (Nat.not_le.mpr hdepth))

/-- A conjunction goes on at AND with its next comparison. -/
theorem reaches_conjunction_next {es : List Expr} (ht : t.kind = .and) :
  Reaches r tokens ⟨⟨n, depth⟩, .resume e, ⟨.conjunction es, entry⟩ :: outer⟩
    ⟨⟨n + 1, depth⟩, .enter, ⟨.operand, ⟨n + 1, depth⟩⟩ ::
      ⟨.comparison depth none, ⟨n + 1, depth⟩⟩ :: ⟨.conjunction (e :: es), entry⟩ :: outer⟩
  := by
  apply Relation.ReflTransGen.head (b := Config.calling ⟨n + 1, depth⟩ ⟨.conjunction es, entry⟩
    (.conjunction (e :: es)) outer)
  · simp only [step, Call.resume, peek_of_drop hrest, pass_of_drop hrest, List.head?_cons,
      Option.getD_some, if_pos ht]
  · exact .single rfl

/-- A disjunction goes on at OR with its next conjunction. -/
theorem reaches_disjunction_next {es : List Expr} (ht : t.kind = .or) :
  Reaches r tokens ⟨⟨n, depth⟩, .resume e, ⟨.disjunction es, entry⟩ :: outer⟩
    ⟨⟨n + 1, depth⟩, .enter, ⟨.operand, ⟨n + 1, depth⟩⟩ ::
      ⟨.comparison depth none, ⟨n + 1, depth⟩⟩ :: ⟨.conjunction [], ⟨n + 1, depth⟩⟩ ::
      ⟨.disjunction (e :: es), entry⟩ :: outer⟩
  := by
  apply Relation.ReflTransGen.head (b := Config.calling ⟨n + 1, depth⟩ ⟨.disjunction es, entry⟩
    (.disjunction (e :: es)) outer)
  · simp only [step, Call.resume, peek_of_drop hrest, pass_of_drop hrest, List.head?_cons,
      Option.getD_some, if_pos ht]
  · apply reaches_conjunction_start

/-- An operand closes its group at a closing parenthesis, and takes back its level. -/
theorem reaches_group_end {inner : Nat} (ht : t.kind = .rightParen) (hinner : inner = depth + 1) :
  Reaches r tokens ⟨⟨n, inner⟩, .resume e, ⟨.operand, entry⟩ :: outer⟩
    ⟨⟨n + 1, depth⟩, .resume (.group e), outer⟩
  := by
  subst hinner
  apply Relation.ReflTransGen.head (b := Config.at ⟨n + 1, depth + 1⟩ (.ascend e)
    ⟨.operand, entry⟩ outer)
  · simp only [step, Call.resume, peek_of_drop hrest, pass_of_drop hrest, List.head?_cons,
      Option.getD_some, if_pos ht]
  · exact .head rfl (.single rfl)

end

/-! ### States as readings -/

/-- The calls that read a group, with the calls around it. -/
def groupCalls (f : Frame) (a b c : Registers) (outer : List Call) : List Call :=
  ⟨.comparison f.base f.pending?, a⟩ :: ⟨.conjunction f.conjuncts, b⟩ ::
    ⟨.disjunction f.disjuncts, c⟩ :: outer

/-- The calls that read the groups around one at a depth. -/
inductive Around : Nat → List Frame → List Call → Prop where
  | nil (base : Nat) : Around base [] []
  | group {g : Frame} {outer : List Frame} {calls : List Call} {a b c d : Registers}
    (h : Around g.base outer calls) :
    Around (g.depth + 1) (g :: outer) (⟨.operand, d⟩ :: groupCalls g a b c calls)

theorem Around.eq_nil {base : Nat} (h : Around base [] calls) :
  calls = []
  := by
  cases h
  rfl

theorem Around.exists_group {base : Nat} {g : Frame} {outer : List Frame}
    (h : Around base (g :: outer) calls) :
  base = g.depth + 1 ∧ ∃ a b c d more, calls = ⟨.operand, d⟩ :: groupCalls g a b c more ∧
    Around g.base outer more
  := by
  cases h with
  | group h => exact ⟨rfl, _, _, _, _, _, rfl, h⟩

/-- A reading shows a state before the tokens that remain: its calls read the open groups, and what
comes next is an operand, or it is an operand that has been read. -/
inductive Shows (tokens : List Token) : State → List Token → Config → Prop where
  | due {f : Frame} {outer : List Frame} {calls : List Call} {rest : List Token} {n : Nat}
    {a b c d : Registers} (h : Around f.base outer calls) (hrest : tokens.drop n = rest) :
    Shows tokens (.due f outer) rest
      ⟨⟨n, f.depth⟩, .enter, ⟨.operand, d⟩ :: groupCalls f a b c calls⟩
  | read {e : Expr} {f : Frame} {outer : List Frame} {calls : List Call} {rest : List Token}
    {n : Nat} {a b c : Registers} (h : Around f.base outer calls)
    (hrest : tokens.drop n = rest) :
    Shows tokens (.read (f.attach e) f outer) rest
      ⟨⟨n, f.depth⟩, .resume e, groupCalls f a b c calls⟩

/-- A reading that begins gets to its first operand. -/
theorem reaches_shows_start (r : Rules) (tokens : List Token) :
  ∃ c, Reaches r tokens start c ∧ Shows tokens .start tokens c
  := ⟨_, reaches_disjunction_start r tokens ⟨0, 0⟩ [], .due (f := .start 0) (.nil 0) rfl⟩

variable {s s' : State} {c : Config}

section

variable {n : Nat} {f : Frame} {b d : Registers}
  (hpeek : ∀ depth, Registers.peek ⟨n, depth⟩ tokens = t) (hop : t.kind.operator? = none)
include hpeek hop

/-- The comparison of a group ends. -/
theorem reaches_comparison :
  Reaches r tokens ⟨⟨n, f.depth⟩, .resume e, groupCalls f g b d calls⟩
    ⟨⟨n, f.base⟩, .resume (f.attach e),
      ⟨.conjunction f.conjuncts, b⟩ :: ⟨.disjunction f.disjuncts, d⟩ :: calls⟩
  := by
  apply reaches_comparison_end
  rw [hpeek, hop]

/-- The comparison and the conjunction of a group end. -/
theorem reaches_conjunction (hand : t.kind ≠ .and) :
  Reaches r tokens ⟨⟨n, f.depth⟩, .resume e, groupCalls f g b d calls⟩
    ⟨⟨n, f.base⟩, .resume (f.conjunction (f.attach e)), ⟨.disjunction f.disjuncts, d⟩ :: calls⟩
  := by
  apply (reaches_comparison hpeek hop).trans
  apply reaches_conjunction_end
  rw [hpeek]
  apply hand

/-- All of a group ends. -/
theorem reaches_expression (hand : t.kind ≠ .and) (hor : t.kind ≠ .or) :
  Reaches r tokens ⟨⟨n, f.depth⟩, .resume e, groupCalls f g b d calls⟩
    ⟨⟨n, f.base⟩, .resume (f.expression (f.attach e)), calls⟩
  := by
  apply (reaches_conjunction hpeek hop hand).trans
  apply reaches_disjunction_end
  rw [hpeek]
  apply hor

end

/-- Where a state moves over a token, the reading that shows it gets to one that shows the state
after it. -/
theorem Shows.exists_of_moves (h : Shows tokens s (t :: rest) c) (hmove : r.Moves s t s') :
  ∃ c', Reaches r tokens c c' ∧ Shows tokens s' rest c'
  := by
  cases h with
  | @due f outer calls _ n a b c d haround hrest =>
    have hnext := drop_succ_of_drop hrest
    cases hmove with
    | leftParen ht hf =>
      exact ⟨_, reaches_group_start hrest ht hf,
        .due (f := .start (f.depth + 1)) (.group haround) hnext⟩
    | operand ht hnames =>
      have hpoint := operandPoint_of_leaf ht hnames
      exact ⟨_, (reaches_of_operand hrest hpoint).tail rfl, .read haround hnext⟩
  | @read e f outer calls _ n a b c haround hrest =>
    have hnext := drop_succ_of_drop hrest
    have hpeek : ∀ depth, Registers.peek ⟨n, depth⟩ tokens = t := fun _ => peek_of_drop hrest
    cases hmove with
    | operator ht hf =>
      exact ⟨_, reaches_comparison_next hrest ht hf,
        .due (f := f.afterOperator _ _ _) haround hnext⟩
    | and ht =>
      have hop : t.kind.operator? = none := by rw [ht]; rfl
      exact ⟨_, (reaches_comparison hpeek hop).trans (reaches_conjunction_next hrest ht),
        .due (f := f.afterAnd (f.attach e)) haround hnext⟩
    | or ht =>
      have hop : t.kind.operator? = none := by rw [ht]; rfl
      have hand : t.kind ≠ .and := by simp [ht]
      exact ⟨_, (reaches_conjunction hpeek hop hand).trans (reaches_disjunction_next hrest ht),
        .due (f := f.afterOr (f.attach e)) haround hnext⟩
    | rightParen ht =>
      obtain ⟨hbase, a', b', c', d, calls, rfl, hmore⟩ := haround.exists_group
      have hop : t.kind.operator? = none := by rw [ht]; rfl
      have hand : t.kind ≠ .and := by simp [ht]
      have hor : t.kind ≠ .or := by simp [ht]
      exact ⟨_, (reaches_expression hpeek hop hand hor).trans (reaches_group_end hrest ht hbase),
        .read hmore hnext⟩

/-- Where a state refuses a token, the reading that shows it fails. -/
theorem Shows.reaches_fail_of_refuses {err : ParseError} (h : Shows tokens s (t :: rest) c)
    (hrefuses : r.Refuses s t err) :
  ∃ g, Reaches r tokens c ⟨g, .fail err, []⟩
  := by
  cases h with
  | @due f outer calls _ n a b c d haround hrest =>
    cases hrefuses with
    | name ht hname =>
      have hoperand := Rules.operand?_eq_some_error_iff.mpr ⟨ht, hname, rfl⟩
      have hpoint : operandPoint r t = .fail (.unknownColumn t r.columns) := by
        rw [operandPoint, if_neg (by simp [ht]), hoperand]
      exact ⟨_, (reaches_of_operand hrest hpoint).trans (reaches_fail _ _ _)⟩
    | leftParen ht hf =>
      have hpoint : operandPoint r t = .descend t := if_pos ht
      exact ⟨_, (reaches_of_operand hrest hpoint).trans (.head (if_pos hf) (reaches_fail _ _ _))⟩
  | @read e f outer calls _ n a b c haround hrest =>
    cases hrefuses with
    | @operator _ op _ _ _ ht hf =>
      have hresume : step r tokens ⟨⟨n, f.depth⟩, .resume e, groupCalls f a b c calls⟩
          = .at ⟨n + 1, f.depth⟩ (.descend t)
              ⟨.comparison f.base (some ⟨f.attach e, op, t.position⟩), a⟩
              (⟨.conjunction f.conjuncts, b⟩ :: ⟨.disjunction f.disjuncts, c⟩ :: calls) := by
        simp only [step, groupCalls, Call.resume, peek_of_drop hrest, pass_of_drop hrest,
          List.head?_cons, Option.getD_some, ht]
        rfl
      exact ⟨_, .head hresume (.head (if_pos hf) (reaches_fail _ _ _))⟩

theorem operandPoint_of_stuck {f : Frame} {outer : List Frame}
    (h : r.advance? (.due f outer) t = .ok none) :
  operandPoint r t = .fail (.expectedExpression t)
  := by
  have hkind : t.kind ≠ .leftParen := by
    intro ht
    rw [Rules.advance?, if_pos ht, Rules.openGroup] at h
    split at h <;> cases h
  rw [Rules.advance?, if_neg hkind] at h
  rw [operandPoint, if_neg hkind]
  cases hoperand : r.operand? t with
  | none => rfl
  | some operand =>
    rw [hoperand] at h
    cases operand <;> cases h

theorem operator?_of_stuck {f : Frame} {outer : List Frame}
    (h : r.advance? (.read e f outer) t = .ok none) :
  t.kind.operator? = none
  := by
  cases hop : t.kind.operator? with
  | none => rfl
  | some op =>
    simp only [Rules.advance?, hop] at h
    split at h <;> cases h

/-- A state that does not move over a token stays at it. -/
theorem not_moves_of_stuck (h : r.advance? s t = .ok none) :
  ¬r.Moves s t s'
  := by
  intro hmove
  rw [Rules.advance?_eq_some_iff.mpr hmove] at h
  cases h

/-- Where a state cannot move over what comes next, the reading that shows it gives what the state
gives there. -/
theorem Shows.exists_of_stuck (h : Shows tokens s rest c)
    (ht : rest.head?.getD (endOf tokens) = t) (hstuck : r.advance? s t = .ok none) :
  ∃ c', Reaches r tokens c c' ∧ outcome? tokens c' = some ((Rules.stop s t).map (·, t))
  := by
  cases h with
  | @due f outer calls _ n a b c d haround hrest =>
    have hpeek : Registers.peek ⟨n, f.depth⟩ tokens = t := (peek_of_drop hrest).trans ht
    have henter : step r tokens ⟨⟨n, f.depth⟩, .enter, ⟨.operand, d⟩ :: groupCalls f a b c calls⟩
        = ⟨Registers.pass ⟨n, f.depth⟩ tokens, .fail (.expectedExpression t),
            ⟨.operand, d⟩ :: groupCalls f a b c calls⟩ := by
      rw [← operandPoint_of_stuck hstuck, ← hpeek]
      rfl
    exact ⟨_, .head henter (reaches_fail _ _ _), rfl⟩
  | @read e f outer calls _ n a b c haround hrest =>
    have hpeek : ∀ depth, Registers.peek ⟨n, depth⟩ tokens = t :=
      fun _ => (peek_of_drop hrest).trans ht
    have hop := operator?_of_stuck hstuck
    have hand : t.kind ≠ .and := fun hand => not_moves_of_stuck hstuck (.and hand)
    have hor : t.kind ≠ .or := fun hor => not_moves_of_stuck hstuck (.or hor)
    have hbody : Reaches r tokens ⟨⟨n, f.depth⟩, .resume e, groupCalls f a b c calls⟩ _ :=
      reaches_expression hpeek hop hand hor
    cases outer with
    | nil =>
      obtain rfl := haround.eq_nil
      refine ⟨_, hbody, ?_⟩
      simp only [outcome?, hpeek]
      rfl
    | cons g outer =>
      obtain ⟨-, a', b', c', d, calls, rfl, -⟩ := haround.exists_group
      have hparen : t.kind ≠ .rightParen :=
        fun hparen => not_moves_of_stuck hstuck (.rightParen hparen)
      have hresume : step r tokens ⟨⟨n, f.base⟩, .resume (f.expression (f.attach e)),
          ⟨.operand, d⟩ :: groupCalls g a' b' c' calls⟩
          = ⟨⟨n, f.base⟩, .fail (.unclosedGroup t),
              ⟨.operand, d⟩ :: groupCalls g a' b' c' calls⟩ := by
        simp only [step, Call.resume, hpeek, if_neg hparen]
        rfl
      exact ⟨_, (hbody.tail hresume).trans (reaches_fail _ _ _), rfl⟩

/-- A reading that shows a state gives the run of the state. -/
theorem Shows.exists_outcome (h : Shows tokens s rest c) :
  ∃ c', Reaches r tokens c c' ∧ outcome? tokens c' = some (r.run (endOf tokens) s rest)
  := by
  induction rest generalizing s c with
  | nil => apply h.exists_of_stuck rfl (Rules.advance?_of_isEnd (isEnd_endOf tokens) s)
  | cons t rest ih =>
    rw [Rules.run]
    cases hadvance : r.advance? s t with
    | error err =>
      obtain ⟨g, hreach⟩ := h.reaches_fail_of_refuses (Rules.advance?_eq_error_iff.mp hadvance)
      exact ⟨_, hreach, rfl⟩
    | ok next =>
      cases next with
      | none => apply h.exists_of_stuck rfl hadvance
      | some s' =>
        obtain ⟨c₁, hreach, hshows⟩ := h.exists_of_moves (Rules.advance?_eq_some_iff.mp hadvance)
        obtain ⟨c₂, hreach', houtcome⟩ := ih hshows
        exact ⟨c₂, hreach.trans hreach', houtcome⟩

/-- A reading that has given something stays as it is. -/
theorem step_of_outcome {result : Except ParseError (Expr × Token)}
    (h : outcome? tokens c = some result) :
  step r tokens c = c
  := by
  unfold outcome? at h
  split at h
  · next hcalls _ => rw [step, hcalls]
  · next hcalls _ => rw [step, hcalls]
  · cases h

/-- A reading ends with what the run of the tokens gives. -/
theorem exists_outcome_after (r : Rules) (tokens : List Token) :
  ∃ n, ∀ k,
    outcome? tokens (after r tokens (n + k)) = some (r.run (endOf tokens) .start tokens)
  := by
  obtain ⟨c, hstart, hshows⟩ := reaches_shows_start r tokens
  obtain ⟨c', hreach, houtcome⟩ := hshows.exists_outcome (r := r)
  obtain ⟨n, hn⟩ := exists_iterate_of_reaches (hstart.trans hreach)
  refine ⟨n, fun k => ?_⟩
  rw [after, Nat.add_comm, Function.iterate_add_apply, hn,
    Function.iterate_fixed (step_of_outcome houtcome)]
  apply houtcome

/-- Descent gives what `parse` gives, after finitely many steps. -/
theorem exists_parse?_eq (tokens : List Token) (columns : List String) (p : Policy) :
  ∃ n, ∀ k, parse? tokens columns p (n + k) = some (parse tokens columns p)
  := by
  have hpeek : start.registers.peek tokens = tokens.head?.getD (endOf tokens) := by
    rw [Registers.peek, List.head?_eq_getElem?]
    rfl
  obtain ⟨n, hn⟩ := exists_outcome_after (rulesOf columns p) tokens
  refine ⟨n, fun k => ?_⟩
  by_cases hempty : (tokens.head?.getD (endOf tokens)).isEnd = true
  · rw [parse?, parse, hpeek, if_pos hempty, if_pos hempty]
  · rw [parse?, parse, hpeek, if_neg hempty, if_neg hempty, hn k]
    rfl

end Descent

end TableQuery.Filter
