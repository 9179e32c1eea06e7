import TableQuery.Proofs.Filter.Acceptance
import TableQuery.Proofs.Filter.Derivations

/-!
# Paths through trees

The limit of depth counts a group, and the links of a chain of comparisons, as they are read.  An
operator that is read later wraps all operands before it, and these are not counted again.  So a
path from the root of a tree to a leaf can meet more groups and comparisons than the limit: within
the limit `d` it meets at most `d (d + 3) / 2` of them, and some path meets as many
(`path_le_of_parse`).  It meets at most `d` if only the last operand of a chain may hold groups.
-/

namespace TableQuery.Filter

namespace Expr

/-- A path from the root to a leaf meets `n` groups and comparisons. -/
inductive HasPath : Expr → Nat → Prop where
  | literal (v : Value) : HasPath (literal v) 0
  | column (name : String) (position : Nat) : HasPath (column name position) 0
  | group {inner : Expr} {n : Nat} (h : HasPath inner n) : HasPath (group inner) (n + 1)
  | left {left right : Expr} {op : Operator} {position n : Nat} (h : HasPath left n) :
    HasPath (binary left op position right) (n + 1)
  | right {left right : Expr} {op : Operator} {position n : Nat} (h : HasPath right n) :
    HasPath (binary left op position right) (n + 1)
  | operand {op : Connective} {operands : List Expr} {e : Expr} {n : Nat} (he : e ∈ operands)
    (h : HasPath e n) : HasPath (logical op operands) n

/-- Whether a tree has neither groups nor connectives. -/
def isFlat : Expr → Bool
  | binary left _ _ right => left.isFlat && right.isFlat
  | literal _ | column _ _ => true
  | group _ | logical _ _ => false

/-- In every chain of comparisons only the last operand may hold groups. -/
inductive GroupsLast : Expr → Prop where
  | literal (v : Value) : GroupsLast (literal v)
  | column (name : String) (position : Nat) : GroupsLast (column name position)
  | group {inner : Expr} (h : GroupsLast inner) : GroupsLast (group inner)
  | binary {left right : Expr} {op : Operator} {position : Nat} (hl : left.isFlat = true)
    (hr : GroupsLast right) : GroupsLast (binary left op position right)
  | logical {op : Connective} {operands : List Expr} (h : ∀ e ∈ operands, GroupsLast e) :
    GroupsLast (logical op operands)

/-! ### The longest paths -/

/-- The greatest number of groups and comparisons that a path can meet within a limit of depth. -/
def longest (limit : Nat) : Nat :=
  limit * (limit + 3) / 2

theorem longest_succ (limit : Nat) :
  longest (limit + 1) = longest limit + limit + 2
  := by
  have hsum : (limit + 1) * (limit + 1 + 3) = limit * (limit + 3) + (limit + 2) * 2 := by ring
  rw [longest, hsum, Nat.add_mul_div_right _ _ (by decide), longest, Nat.add_assoc]

theorem longest_lt {d limit : Nat} (h : d < limit) :
  longest d < longest limit
  := by
  induction h with
  | refl =>
    rw [longest_succ]
    omega
  | step _ ih =>
    rw [longest_succ]
    omega

variable {e : Expr} {n limit : Nat}

theorem links_of_isOperand (h : e.isOperand = true) :
  e.links = 0
  := by
  cases e with
  | binary => cases h
  | _ => rfl

theorem nesting_le_logical {op : Connective} {operands : List Expr} (he : e ∈ operands) :
  e.nesting ≤ (logical op operands).nesting
  := by
  rw [nesting]
  apply nestings_le.mp (Nat.le_refl _) e he

/-- A path through a normal tree is no longer than the longest one within the limit that the tree
keeps to.  In a chain of comparisons the part below its operators is shorter by what the limit
leaves for further operators. -/
theorem HasPath.le_longest (h : e.HasPath n) (hnormal : e.isNormal = true)
    (hlimit : e.nesting ≤ limit) :
  n ≤ longest limit ∧ (e.isChain = true → n + limit ≤ longest limit + e.links)
  := by
  have hleast (limit : Nat) : limit ≤ longest limit := by
    induction limit with
    | zero => apply Nat.zero_le
    | succ limit ih =>
      rw [longest_succ]
      omega
  induction h generalizing limit with
  | literal | column => exact ⟨Nat.zero_le _, fun _ => by simpa [links] using hleast limit⟩
  | @group inner n h ih =>
    rw [nesting] at hlimit
    obtain ⟨d, rfl⟩ : ∃ d, limit = d + 1 := ⟨limit - 1, by omega⟩
    obtain ⟨hn, -⟩ := ih hnormal (Nat.le_of_succ_le_succ hlimit)
    have hlinks : (Expr.group inner).links = 0 := rfl
    rw [longest_succ, hlinks]
    omega
  | @left l r op position n h ih =>
    obtain ⟨hchain, -, hl, -⟩ := isNormal_binary_iff.mp hnormal
    rw [nesting] at hlimit
    have hlimitLeft : l.nesting ≤ limit := Nat.le_trans (Nat.le_max_left _ _) hlimit
    have := (ih hl hlimitLeft).2 hchain
    rw [links]
    omega
  | @right l r op position n h ih =>
    obtain ⟨-, hoperand, -, hr⟩ := isNormal_binary_iff.mp hnormal
    rw [nesting] at hlimit
    obtain ⟨d, hd⟩ : ∃ d, limit = d + (l.links + 1) := ⟨limit - (l.links + 1), by omega⟩
    have hlimitRight : r.nesting ≤ d := by omega
    obtain ⟨-, hn⟩ := ih hr hlimitRight
    have hbelow := hn (isChain_of_isOperand hoperand)
    have hlonger : longest d < longest limit := longest_lt (by omega)
    rw [links_of_isOperand hoperand] at hbelow
    rw [links]
    omega
  | @operand op operands e n he h ih =>
    obtain ⟨-, hparts⟩ := isNormal_logical_iff.mp hnormal
    obtain ⟨hn, -⟩ := ih (hparts e he).2 (Nat.le_trans (nesting_le_logical he) hlimit)
    use hn
    intro hchain
    cases hchain

/-- A path through a chain of single tokens meets only operators of the chain. -/
theorem HasPath.le_links (h : e.HasPath n) (hnormal : e.isNormal = true)
    (hflat : e.isFlat = true) :
  n ≤ e.links
  := by
  induction h with
  | literal | column => apply Nat.le_refl
  | group | operand => cases hflat
  | @left l r op position n h ih =>
    obtain ⟨-, -, hl, -⟩ := isNormal_binary_iff.mp hnormal
    rw [isFlat, Bool.and_eq_true] at hflat
    apply Nat.succ_le_succ (ih hl hflat.1)
  | @right l r op position n h ih =>
    obtain ⟨-, hoperand, -, hr⟩ := isNormal_binary_iff.mp hnormal
    rw [isFlat, Bool.and_eq_true] at hflat
    have := ih hr hflat.2
    rw [links_of_isOperand hoperand] at this
    rw [links]
    omega

/-- Where only last operands hold groups, a path is no longer than the depth of the tree. -/
theorem HasPath.le_nesting (h : e.HasPath n) (hnormal : e.isNormal = true)
    (hlast : e.GroupsLast) :
  n ≤ e.nesting
  := by
  induction h with
  | literal | column => apply Nat.zero_le
  | group h ih =>
    obtain _ | _ | hinner := hlast
    rw [nesting]
    apply Nat.succ_le_succ (ih hnormal hinner)
  | left h ih =>
    obtain _ | _ | _ | ⟨hl, hr⟩ := hlast
    obtain ⟨-, -, hnormal, -⟩ := isNormal_binary_iff.mp hnormal
    have := h.le_links hnormal hl
    rw [nesting]
    omega
  | right h ih =>
    obtain _ | _ | _ | ⟨hl, hr⟩ := hlast
    obtain ⟨-, -, -, hnormal⟩ := isNormal_binary_iff.mp hnormal
    have := ih hnormal hr
    rw [nesting]
    omega
  | @operand op operands e n he h ih =>
    obtain _ | _ | _ | _ | hoperands := hlast
    obtain ⟨-, hparts⟩ := isNormal_logical_iff.mp hnormal
    apply Nat.le_trans (ih (hparts e he).2 (hoperands e he)) (nesting_le_logical he)

/-! ### A tree with a longest path -/

/-- The tree as the first operand of a chain of `n` comparisons with null. -/
def comparedWithNull (e : Expr) : Nat → Expr
  | 0 => e
  | n + 1 => .binary (e.comparedWithNull n) .eq 0 (.literal .null)

theorem links_comparedWithNull (h : e.links = 0) (n : Nat) :
  (e.comparedWithNull n).links = n
  := by
  induction n with
  | zero => apply h
  | succ n ih => rw [comparedWithNull, links, ih]

theorem nesting_comparedWithNull (h : e.links = 0) (n : Nat) :
  (e.comparedWithNull n).nesting = max e.nesting n
  := by
  induction n with
  | zero => simp [comparedWithNull]
  | succ n ih =>
    rw [comparedWithNull, nesting, ih, links_comparedWithNull h, nesting]
    omega

theorem HasPath.comparedWithNull {k : Nat} (h : e.HasPath k) (n : Nat) :
  (e.comparedWithNull n).HasPath (k + n)
  := by
  induction n with
  | zero => apply h
  | succ n ih => exact .left ih

end Expr

variable {columns : List String}

/-- A chain of comparisons can be lengthened by comparisons with null. -/
theorem Comparison.comparedWithNull {ts : List Token} {e : Expr} (h : Comparison ts e)
    (hnames : NamesIn columns ts) (n : Nat) :
  ∃ us, Comparison us (e.comparedWithNull n) ∧ NamesIn columns us
  := by
  induction n with
  | zero => exact ⟨ts, h, hnames⟩
  | succ n ih =>
    obtain ⟨us, hus, hnames⟩ := ih
    let equal : Token := ⟨.equal, "==", none, 0⟩
    let null : Token := ⟨.nullWord, "null", none, 0⟩
    have hop : equal.kind.operator? = some .eq := rfl
    refine ⟨us ++ equal :: [null], .operator hus hop (.leaf (.nullWord rfl)), ?_⟩
    have hnull : NamesIn columns [null] := namesIn_singleton fun hk => nomatch hk
    exact namesIn_append.mpr ⟨hnames, namesIn_cons.mpr ⟨(fun hk => nomatch hk), hnull⟩⟩

/-- Within every limit there is a tree with a path of the greatest length. -/
theorem exists_comparison_longest (columns : List String) (limit : Nat) :
  ∃ ts e, Comparison ts e ∧ NamesIn columns ts ∧ e.nesting ≤ limit ∧
    e.HasPath (Expr.longest limit)
  := by
  induction limit with
  | zero =>
    let null : Token := ⟨.nullWord, "null", none, 0⟩
    refine ⟨[null], .literal .null, .operand (.leaf (.nullWord rfl)),
      namesIn_singleton (fun hk => nomatch hk), ?_, .literal .null⟩
    rw [Expr.nesting]
  | succ limit ih =>
    -- The tree within the next limit is the group of the one before in a chain of comparisons.
    obtain ⟨ts, e, h, hnames, hlimit, hpath⟩ := ih
    let l : Token := ⟨.leftParen, "(", none, 0⟩
    let r : Token := ⟨.rightParen, ")", none, 0⟩
    have hgroup : Comparison (l :: ts ++ [r]) (.group e) :=
      .operand (@Operand.group l r ts [e] rfl (.conjunction (.comparison h)) rfl)
    have hgroupNames : NamesIn columns (l :: ts ++ [r]) := by
      have hr : NamesIn columns [r] := namesIn_singleton fun hk => nomatch hk
      exact namesIn_append.mpr ⟨namesIn_cons.mpr ⟨(fun hk => nomatch hk), hnames⟩, hr⟩
    obtain ⟨us, hus, husNames⟩ := hgroup.comparedWithNull hgroupNames (limit + 1)
    refine ⟨us, _, hus, husNames, ?_, ?_⟩
    · rw [Expr.nesting_comparedWithNull rfl, Expr.nesting]
      omega
    · have hlength : Expr.longest (limit + 1) = Expr.longest limit + 1 + (limit + 1) := by
        rw [Expr.longest_succ]
        omega
      rw [hlength]
      apply (Expr.HasPath.group hpath).comparedWithNull

/-! ### Trees that are read -/

/-- Within the limit of depth `d` a path through a tree that is read meets at most `d (d + 3) / 2`
groups and comparisons, and a path through some such tree meets as many.  It meets at most `d` if
only the last operand of a chain of comparisons may hold groups. -/
theorem path_le_of_parse (columns : List String) (p : Policy) :
  (∀ tokens e, parse tokens columns p = .ok e →
    ∀ n, e.HasPath n → n ≤ p.maxDepth.toNat * (p.maxDepth.toNat + 3) / 2 ∧
      (e.GroupsLast → n ≤ p.maxDepth.toNat)) ∧
  ∃ tokens e, parse tokens columns p = .ok e ∧
    e.HasPath (p.maxDepth.toNat * (p.maxDepth.toNat + 3) / 2)
  := by
  constructor
  · intro tokens e hparse n hpath
    obtain ⟨body, rest, c, f, -, hsteps, rfl, -⟩ := exists_steps_of_parse hparse
    obtain ⟨hexpression, hlimit⟩ := hsteps.expression
    obtain ⟨hnormal, -⟩ := hexpression.isNormal (P := fun _ => True) fun _ _ _ _ => trivial
    exact ⟨(hpath.le_longest hnormal hlimit).1,
      fun hlast => Nat.le_trans (hpath.le_nesting hnormal hlast) hlimit⟩
  · obtain ⟨ts, e, h, hnames, hlimit, hpath⟩ :=
      exists_comparison_longest columns p.maxDepth.toNat
    have hexpression : Expression ts e := ⟨[e], .conjunction (.comparison h), rfl⟩
    obtain ⟨c, f, hsteps, rfl⟩ := hexpression.steps (r := rulesOf columns p) hnames hlimit
    have hrest : ∀ t ∈ ([] : List Token).head?, t.isEnd = true := fun _ ht => nomatch ht
    exact ⟨ts ++ [], _, parse_of_steps hsteps hrest, hpath⟩

/-- Two comparisons with a group.  Before the operator the group is not counted together with the
comparison, and a path of two is read within the limit one; after it the limit must be two. -/
theorem path_le_of_parse_of_groups :
  ∃ ts us d e, tokenize "(a) == null" = .ok ts ∧ tokenize "null == (a)" = .ok us ∧
    parse ts ["a"] { maxDepth := 1 } = .ok d ∧ d.HasPath 2 ∧
    2 ≤ (1 : UInt64).toNat * ((1 : UInt64).toNat + 3) / 2 ∧
    parse us ["a"] { maxDepth := 2 } = .ok e ∧ e.HasPath 2 ∧ e.GroupsLast ∧
    2 ≤ (2 : UInt64).toNat
  := by
  obtain ⟨ts, hts, hbefore⟩ : ∃ ts, tokenize "(a) == null" = .ok ts ∧
      parse ts ["a"] { maxDepth := 1 }
        = .ok (.binary (.group (.column "a" 1)) .eq 4 (.literal .null)) := by
    use [⟨.leftParen, "(", none, 0⟩, ⟨.identifier, "a", none, 1⟩, ⟨.rightParen, ")", none, 2⟩,
      ⟨.equal, "==", none, 4⟩, ⟨.nullWord, "null", none, 7⟩, .endAt 11]
    exact ⟨by decide +kernel, rfl⟩
  obtain ⟨us, hus, hafter⟩ : ∃ us, tokenize "null == (a)" = .ok us ∧
      parse us ["a"] { maxDepth := 2 }
        = .ok (.binary (.literal .null) .eq 5 (.group (.column "a" 9))) := by
    use [⟨.nullWord, "null", none, 0⟩, ⟨.equal, "==", none, 5⟩, ⟨.leftParen, "(", none, 8⟩,
      ⟨.identifier, "a", none, 9⟩, ⟨.rightParen, ")", none, 10⟩, .endAt 11]
    exact ⟨by decide +kernel, rfl⟩
  have hgroup (position : Nat) : (Expr.group (.column "a" position)).HasPath 1 :=
    .group (.column "a" position)
  have hleft : (Expr.binary (.group (.column "a" 1)) .eq 4 (.literal .null)).HasPath 2 :=
    .left (hgroup 1)
  have hright : (Expr.binary (.literal .null) .eq 5 (.group (.column "a" 9))).HasPath 2 :=
    .right (hgroup 9)
  have hlast : (Expr.binary (.literal .null) .eq 5 (.group (.column "a" 9))).GroupsLast :=
    .binary rfl (.group (.column "a" 9))
  obtain ⟨hone, -⟩ := path_le_of_parse ["a"] { maxDepth := 1 }
  obtain ⟨htwo, -⟩ := path_le_of_parse ["a"] { maxDepth := 2 }
  exact ⟨ts, us, _, _, hts, hus, hbefore, hleft, (hone ts _ hbefore _ hleft).1, hafter, hright,
    hlast, (htwo us _ hafter _ hright).2 hlast⟩

end TableQuery.Filter
