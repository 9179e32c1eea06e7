import TableQuery.Proofs.Filter.Enclosure
import TableQuery.Proofs.Filter.Places
import TableQuery.Proofs.Filter.Selection

/-!
# Conjunctions of filters

A filter text in parentheses is read as a group of what it is read as alone, so the conjunction of
two texts is read as the AND of their groups (`read_conjunctionText`).  It holds where both of them
have a value and hold, although both are evaluated on every row, and so it selects the rows that
the second one selects among those that the first one selects (`select_conjunction`).
-/

namespace TableQuery.Filter

/-! ### Reading a conjunction -/

/-- The conjunction of two filter texts. -/
def conjunctionText (a b : String) : String :=
  "(" ++ a ++ ") AND (" ++ b ++ ")"

/-- The tokens of the conjunction of two texts are those of the texts, each in parentheses, with
an AND between them. -/
theorem tokenize_conjunctionText {a b : String} {ts us : List Token} (ha : tokenize a = .ok ts)
    (hb : tokenize b = .ok us) :
  ∃ body more i j vs stop, ts = body ++ [.endAt i] ∧ us = more ++ [.endAt j] ∧
    tokenize (conjunctionText a b) = .ok (vs ++ [.endAt stop]) ∧
    vs.map Token.unplaced = enclosed (body.map Token.unplaced) ++
      ⟨.and, "AND", none, 0⟩ :: enclosed (more.map Token.unplaced)
  := by
  obtain ⟨more, j, rfl, hright⟩ := reads_enclosed hb []
  obtain ⟨body, i, rfl, hleft⟩ := reads_enclosed ha
    (Expr.spaced Connective.and.symbol ++ ('(' :: b.toList ++ [')']) ++ [])
  have hreads := hleft.spaced (scans_connective .and _) hright (by simp [enclosed])
  obtain ⟨vs, stop, htokens, hvs⟩ := hreads.tokenize
  have htext : String.ofList ('(' :: a.toList ++ [')'] ++ Expr.spaced Connective.and.symbol ++
      ('(' :: b.toList ++ [')'])) = conjunctionText a b := by
    simp [← String.toList_inj, conjunctionText, Expr.spaced, Connective.symbol]
  rw [htext] at htokens
  exact ⟨body, more, i, j, vs, stop, rfl, rfl, htokens, hvs⟩

variable {columns : List String} {p : Policy}

/-- What is read in full from tokens stands, up to positions, as a group for the same tokens in
parentheses at other places. -/
theorem operand_of_enclosed {body ts : List Token} {stop : Nat} {e : Expr}
    (hp : p.mode = .strict) (hparse : parse (body ++ [.endAt stop]) columns p = .ok e)
    (hbody : ∀ t ∈ body, t.isEnd = false)
    (h : ts.map Token.unplaced = enclosed (body.map Token.unplaced)) :
  ∃ e', Operand ts (.group e') ∧ e'.unplaced = e.unplaced
  := by
  obtain ⟨ls, rs, rfl, hls, hrs⟩ := List.map_eq_append_iff.mp h
  obtain ⟨l, inner, rfl, hl, hinner⟩ := List.map_eq_cons_iff.mp hls
  obtain ⟨r, rest, rfl, hr, hrest⟩ := List.map_eq_cons_iff.mp hrs
  obtain rfl := List.map_eq_nil_iff.mp hrest
  have hplaces : (body ++ [Token.endAt stop]).map Token.unplaced
      = (inner ++ [Token.endAt stop]).map .unplaced := by
    rw [List.map_append, List.map_append, hinner]
  -- What a derivation is read from matters up to places only, which are others in the parentheses.
  obtain ⟨e', hread, hunplaced⟩ := parse_of_unplaced hplaces hparse
  have hinnerEnd : ∀ t ∈ inner, t.isEnd = false := by
    intro t ht
    have hmem : t.unplaced ∈ body.map Token.unplaced := hinner ▸ List.mem_map_of_mem ht
    obtain ⟨u, hu, hsame⟩ := List.mem_map.mp hmem
    have hkind : u.kind = t.kind := (Token.mk.inj hsame).1
    rw [Token.isEnd, ← hkind]
    apply hbody u hu
  obtain ⟨⟨es, hes, rfl⟩, -, -⟩ := (parse_eq_ok_iff hp e').mp hread
  rw [takeWhile_isBeforeEnd hinnerEnd (by simp)] at hes
  have hopen : l.kind = .leftParen := (Token.mk.inj hl).1
  have hclose : r.kind = .rightParen := (Token.mk.inj hr).1
  exact ⟨_, .group hopen hes hclose, hunplaced⟩

/-- The conjunction of two texts is read as the AND of the groups of what they are read as. -/
theorem read_conjunctionText {a b : String} {e f g : Expr} (hp : p.mode = .strict)
    (ha : read a columns p = .ok e) (hb : read b columns p = .ok f)
    (h : read (conjunctionText a b) columns p = .ok g) :
  g.unplaced = (Expr.logical .and [.group e, .group f]).unplaced
  := by
  obtain ⟨ts, hats, haparse⟩ := read_eq_ok_iff.mp ha
  obtain ⟨us, hbus, hbparse⟩ := read_eq_ok_iff.mp hb
  obtain ⟨ws, hws, hparse⟩ := read_eq_ok_iff.mp h
  obtain ⟨body, more, i, j, vs, stop, rfl, rfl, hvs, hplaces⟩ :=
    tokenize_conjunctionText hats hbus
  obtain rfl := Except.ok.inj (hvs.symm.trans hws)
  obtain ⟨ls, rest, rfl, hls, hrest⟩ := List.map_eq_append_iff.mp hplaces
  obtain ⟨t, rs, rfl, ht, hrs⟩ := List.map_eq_cons_iff.mp hrest
  have hkind : t.kind = .and := (Token.mk.inj ht).1
  obtain ⟨e', hleft, he⟩ := operand_of_enclosed hp haparse (isEnd_of_tokenize hats) hls
  obtain ⟨f', hright, hf⟩ := operand_of_enclosed hp hbparse (isEnd_of_tokenize hbus) hrs
  -- Tokens have one tree, so it is enough that the AND of the groups derives from these.
  have hexpression : Expression (ls ++ t :: rs) (.logical .and [.group e', .group f']) :=
    ⟨_, .conjunction (.and (.comparison (.operand hleft)) hkind (.operand hright)), rfl⟩
  obtain ⟨hg, -, -⟩ := (parse_eq_ok_iff hp g).mp hparse
  rw [takeWhile_isBeforeEnd (isEnd_of_tokenize hvs) (by simp)] at hg
  obtain rfl := hg.unique hexpression
  simp [he, hf]

/-! ### Selecting by a conjunction -/

/-- The AND of two groups keeps what the second one keeps of what the first one keeps. -/
theorem keep_and_group (e f : Expr) (rows : List Row) :
  (Expr.logical .and [.group e, .group f]).keep rows = f.keep (e.keep rows)
  := by
  rw [Expr.keep, Expr.keep, Expr.keep, List.filter_filter]
  apply List.filter_congr
  intro row _
  simp only [Expr.holds, Expr.value, Expr.conditions]
  cases e.value row with
  | error err => cases f.value row <;> simp [Except.map]
  | ok v =>
    cases f.value row with
    | error err => simp [Except.map]
    | ok w => simp [Except.map, Connective.apply, isTruthy, Bool.and_comm]

theorem keep_congr {e f : Expr} (h : e.unplaced = f.unplaced) (rows : List Row) :
  e.keep rows = f.keep rows
  := by
  apply List.filter_congr
  intro row _
  rw [Expr.holds_congr h]

/-- The conjunction of two filters selects, in the same order, the rows that are left when the
second filter selects among those that the first one selects, also where one of them fails. -/
theorem select_conjunction {rows : List Row} {schema : Schema} {p : Policy} {a b : String}
    (strict : p.mode = .strict) (ha : ∃ e, read a schema.headers p = .ok e)
    (hb : ∃ f, read b schema.headers p = .ok f)
    (hab : ∃ g, read ("(" ++ a ++ ") AND (" ++ b ++ ")") schema.headers p = .ok g) :
  ∃ first last s₁ s₂ s, select rows schema a p = .ok (first, s₁) ∧
    select first schema b p = .ok (last, s₂) ∧
    select rows schema ("(" ++ a ++ ") AND (" ++ b ++ ")") p = .ok (last, s)
  := by
  obtain ⟨e, he⟩ := ha
  obtain ⟨f, hf⟩ := hb
  obtain ⟨g, hg⟩ := hab
  have hkeep : g.keep rows = f.keep (e.keep rows) := by
    rw [keep_congr (read_conjunctionText strict he hf hg), keep_and_group]
  have hselect : select rows schema ("(" ++ a ++ ") AND (" ++ b ++ ")") p = .ok (g.keep rows, _) :=
    select_of_read hg
  rw [hkeep] at hselect
  exact ⟨_, _, _, _, _, select_of_read he, select_of_read hf, hselect⟩

/-- Three and one, and between them a text, on which both filters fail. -/
theorem select_conjunction_of_text :
  ∃ (three text one : Row) (schema : Schema),
    three = .ofList [("n", .int 3)] ∧ text = .ofList [("n", .text "x")] ∧
    one = .ofList [("n", .int 1)] ∧ schema = ⟨["n"], .ofList [("n", .string)]⟩ ∧
    Policy.strict.mode = .strict ∧ (∃ e, read "n > 0" schema.headers .strict = .ok e) ∧
    (∃ f, read "n < 2 " schema.headers .strict = .ok f) ∧
    (∃ g, read ("(" ++ "n > 0" ++ ") AND (" ++ "n < 2 " ++ ")") schema.headers .strict = .ok g) ∧
    select [three, text, one] schema "n > 0" .strict = .ok ([three, one], ⟨3, 2, 1⟩) ∧
    select [three, one] schema "n < 2 " .strict = .ok ([one], ⟨2, 1, 0⟩) ∧
    ∃ s, select [three, text, one] schema ("(" ++ "n > 0" ++ ") AND (" ++ "n < 2 " ++ ")") .strict
      = .ok ([one], s)
  := by
  let schema : Schema := ⟨["n"], .ofList [("n", .string)]⟩
  let three : Row := .ofList [("n", .int 3)]
  let text : Row := .ofList [("n", .text "x")]
  let one : Row := .ofList [("n", .int 1)]
  have ha : ∃ e, read "n > 0" schema.headers .strict = .ok e :=
    exists_read_of_isOk (by decide +kernel)
  have hb : ∃ f, read "n < 2 " schema.headers .strict = .ok f :=
    exists_read_of_isOk (by decide +kernel)
  have hab : ∃ g, read ("(" ++ "n > 0" ++ ") AND (" ++ "n < 2 " ++ ")") schema.headers .strict
      = .ok g := exists_read_of_isOk (by decide +kernel)
  have hfirst : select [three, text, one] schema "n > 0" .strict
      = .ok ([three, one], ⟨3, 2, 1⟩) := by decide +kernel
  have hlast : select [three, one] schema "n < 2 " .strict = .ok ([one], ⟨2, 1, 0⟩) := by
    decide +kernel
  obtain ⟨first, last, _, _, s, h₁, h₂, h₃⟩ :=
    @select_conjunction [three, text, one] schema .strict "n > 0" "n < 2 " rfl ha hb hab
  obtain ⟨rfl, -⟩ := Prod.mk.inj (Except.ok.inj (hfirst.symm.trans h₁))
  obtain ⟨rfl, -⟩ := Prod.mk.inj (Except.ok.inj (hlast.symm.trans h₂))
  exact ⟨three, text, one, schema, rfl, rfl, rfl, rfl, rfl, ha, hb, hab, hfirst, hlast, s, h₃⟩

end TableQuery.Filter
