import TableQuery.Filter.Lexer
import TableQuery.Proofs.Number.Numeral

/-!
# Runs of the lexer

`Lexer.Takes l ts m` says that the lexer `l` takes the tokens `ts` off its text and is `m` after
them, with the characters that really follow still there.  The tokens of a text are those that
its lexer takes until it has finished (`tokenize_eq_ok_iff`).  Each of them but the last
`Token.IsRead`: its value and its spelling are as its kind says.  They stand in the text one
after the other, so their positions increase.
-/

namespace TableQuery.Filter

/-! ### Character classes -/

/-- The characters that stand between tokens, or start a symbol or a string. -/
def marks : List Char :=
  [' ', '\t', '\r', '\n', '(', ')', '=', '!', '<', '>', '"']

/-- A character of a class without marks is no mark. -/
theorem notMem_marks {p : Char → Bool} (hp : marks.any p = false) {c : Char} (h : p c = true) :
  c ∉ marks
  := by
  intro hc
  rw [List.any_eq_true.mpr ⟨c, hc, h⟩] at hp
  cases hp

theorem notMem_marks_of_isNameStart {c : Char} (h : isNameStart c = true) :
  c ∉ marks
  := notMem_marks (by decide +kernel) h

theorem notMem_marks_of_isDigit {c : Char} (h : c.isDigit = true) :
  c ∉ marks
  := notMem_marks rfl h

theorem ne_quote_of_notMem_marks {c : Char} (h : c ∉ marks) :
  c ≠ '"'
  := by
  rintro rfl
  apply h (by decide)

theorem symbol?_of_notMem_marks {c : Char} (h : c ∉ marks) (rest : List Char) :
  symbol? (c :: rest) = none
  := by
  unfold symbol?
  split
  case h_11 => rfl
  all_goals
    next heq =>
      obtain rfl := (List.cons.inj heq).1
      exact absurd (by decide) h

theorem isNameStart_of_isDigit {c : Char} (h : c.isDigit = true) :
  isNameStart c = false
  := by
  have hrange := toNat_of_isDigit h
  have hmark : c ≠ '_' := by
    rintro rfl
    simp at h
  have hletter : Text.isLetter c = false := by
    apply Bool.eq_false_iff.mpr
    intro hletter
    obtain ⟨r, hr, hlow, hhigh⟩ := CharClass.exists_mem_of_inRanges hletter
    have hnone : CharClass.alphabetic.ranges.all (fun r => r.2 < 48 ∨ 57 < r.1) = true := by
      decide +kernel
    have := List.all_eq_true.mp hnone r hr
    simp only [decide_eq_true_eq] at this
    omega
  simp [isNameStart, hletter, hmark]

/-- Whether a text is a word: the start of a name and further characters of names. -/
def isWord : List Char → Bool
  | [] => false
  | c :: rest => isNameStart c && rest.all isNameChar

/-- Whether a text is a name: a word that is no keyword. -/
def isName (name : String) : Bool :=
  isWord name.toList && wordKind name.toList = .identifier

/-! ### The token at the start of a text -/

theorem stringLength?_eq_some_iff {rest : List Char} {n : Nat} :
  stringLength? rest = some n
    ↔ ∃ body tail, rest = body ++ '"' :: tail ∧ '"' ∉ body ∧ n = body.length + 2
  := by
  have hbody : '"' ∉ rest.takeWhile (· ≠ '"') := by
    intro hmem
    have := List.all_eq_true.mp List.all_takeWhile _ hmem
    simp at this
  constructor
  · intro h
    simp only [stringLength?] at h
    split at h
    · next hlt =>
      obtain ⟨c, tail, hdrop⟩ : ∃ c tail, rest.dropWhile (· ≠ '"') = c :: tail := by
        apply List.exists_cons_of_ne_nil
        intro hnil
        have := congrArg List.length (List.takeWhile_append_dropWhile (p := (· ≠ '"')) (l := rest))
        rw [hnil, List.append_nil] at this
        omega
      obtain rfl : c = '"' := by
        have := List.head?_dropWhile_not (· ≠ '"') rest
        rw [hdrop] at this
        simpa using this
      refine ⟨rest.takeWhile (· ≠ '"'), tail, ?_, hbody, (Option.some.inj h).symm⟩
      rw [← hdrop, List.takeWhile_append_dropWhile]
    · cases h
  · rintro ⟨body, tail, rfl, hnot, rfl⟩
    have htake : (body ++ '"' :: tail).takeWhile (· ≠ '"') = body :=
      takeWhile_append_of_ends
        (fun c hc => by simpa using fun h : c = '"' => hnot (h ▸ hc)) (by simp)
    simp only [stringLength?]
    rw [htake, if_pos (by simp)]

theorem take_word (c : Char) (rest : List Char) :
  (c :: rest).take (1 + (rest.takeWhile isNameChar).length) = c :: rest.takeWhile isNameChar
  := by
  rw [Nat.add_comm, List.take_succ_cons]
  rw [← List.prefix_iff_eq_take.mp (List.takeWhile_prefix _)]

/-- The kinds of the tokens that start with `c` before `rest`, and their lengths. -/
inductive Shape (c : Char) (rest : List Char) : Token.Kind → Nat → Prop where
  | symbol {k : Token.Kind} {n : Nat} (h : symbol? (c :: rest) = some (k, n)) : Shape c rest k n
  | string {body tail : List Char} (hc : c = '"') (hrest : rest = body ++ '"' :: tail)
    (hbody : '"' ∉ body) :
    Shape c rest .string (body.length + 2)
  | number (hc : c.isDigit = true) : Shape c rest .number (numberLength rest)
  | word (hc : isNameStart c = true) :
    Shape c rest (wordKind (c :: rest.takeWhile isNameChar))
      (1 + (rest.takeWhile isNameChar).length)

section

variable {c : Char} {rest : List Char} {k : Token.Kind} {n : Nat}

theorem Shape.of_eq_ok (h : shape c rest = .ok (k, n)) :
  Shape c rest k n
  := by
  unfold shape at h
  split at h
  · next hs =>
    cases h
    exact .symbol hs
  · split at h
    · next hc =>
      split at h
      · next hn =>
        cases h
        obtain ⟨body, tail, hrest, hbody, rfl⟩ := stringLength?_eq_some_iff.mp hn
        exact .string hc hrest hbody
      · cases h
    · split at h
      · next hdigit =>
        cases h
        exact .number hdigit
      · split at h
        · next hname =>
          cases h
          rw [take_word]
          exact .word hname
        · cases h

theorem symbol?_kind {cs : List Char} (h : symbol? cs = some (k, n)) :
  k ≠ .endOfInput ∧ k ≠ .number ∧ k ≠ .string ∧ k ≠ .identifier
  := by
  unfold symbol? at h
  split at h <;> cases h <;> decide

theorem wordKind_ne (lexeme : List Char) :
  wordKind lexeme ≠ .endOfInput ∧ wordKind lexeme ≠ .number ∧ wordKind lexeme ≠ .string
  := by
  unfold wordKind
  repeat' split
  all_goals decide

theorem Shape.ne_endOfInput (h : Shape c rest k n) :
  k ≠ .endOfInput
  := by
  cases h with
  | symbol h => apply (symbol?_kind h).1
  | word => apply (wordKind_ne _).1
  | string | number => decide

theorem Shape.of_number (h : Shape c rest k n) (hk : k = .number) :
  c.isDigit = true
  := by
  cases h with
  | symbol h => exact absurd hk (symbol?_kind h).2.1
  | string => cases hk
  | number hc => apply hc
  | word => exact absurd hk (wordKind_ne _).2.1

theorem Shape.of_string (h : Shape c rest k n) (hk : k = .string) :
  ∃ body, (c :: rest).take n = '"' :: body ++ ['"'] ∧ '"' ∉ body
  := by
  cases h with
  | symbol h => exact absurd hk (symbol?_kind h).2.2.1
  | @string body tail hc hrest hbody =>
    refine ⟨body, ?_, hbody⟩
    rw [hc, hrest, List.take_succ_cons, List.take_length_add_append]
    rfl
  | number => cases hk
  | word => exact absurd hk (wordKind_ne _).2.2

theorem Shape.of_identifier (h : Shape c rest k n) (hk : k = .identifier) :
  isWord ((c :: rest).take n) = true ∧ wordKind ((c :: rest).take n) = .identifier
  := by
  cases h with
  | symbol h => exact absurd hk (symbol?_kind h).2.2.2
  | string => cases hk
  | number => cases hk
  | word hc =>
    have hall : (rest.takeWhile isNameChar).all isNameChar = true := List.all_takeWhile
    rw [take_word, isWord, hc, hall]
    exact ⟨rfl, hk⟩

end

/-- A token as texts hold it: its value and its spelling are as its kind says. -/
structure Token.IsRead (t : Token) : Prop where
  notEnd : t.isEnd = false
  number : t.kind = .number →
    ∃ x, t.literal? = some (.float x) ∧ x.negative = false ∧ x.isNaN = false
  string : t.kind = .string → ∃ s, t.literal? = some (.text s) ∧ '"' ∉ s.toList
  identifier : t.kind = .identifier → isName t.lexeme = true
  lexeme : t.lexeme ≠ ""

theorem scan_eq_ok {position : Nat} {c : Char} {rest : List Char} {t : Token} {n : Nat}
    (h : scan position c rest = .ok (t, n)) :
  shape c rest = .ok (t.kind, n) ∧ literalOf t.kind ((c :: rest).take n) = .ok t.literal? ∧
    t.lexeme = String.ofList ((c :: rest).take n) ∧ t.position = position
  := by
  unfold scan at h
  split at h
  · cases h
  · next k n hshape =>
    simp only at h
    split at h
    · cases h
    · next literal? hliteral =>
      cases h
      exact ⟨hshape, hliteral, rfl, rfl⟩

/-- What is scanned at a place of a text stands at that place, as a text holds it. -/
theorem scan_isRead {position : Nat} {c : Char} {rest : List Char} {t : Token} {n : Nat}
    (h : scan position c rest = .ok (t, n)) :
  t.IsRead ∧ t.position = position
  := by
  obtain ⟨hshape, hliteral, hlexeme, hposition⟩ := scan_eq_ok h
  have hkind := Shape.of_eq_ok hshape
  obtain ⟨m, rfl⟩ := Nat.exists_eq_succ_of_ne_zero (Nat.ne_of_gt (shape_length_pos hshape))
  rw [List.take_succ_cons] at hliteral hlexeme
  refine ⟨?_, hposition⟩
  constructor
  · simpa [Token.isEnd] using hkind.ne_endOfInput
  · intro hk
    simp only [hk, literalOf] at hliteral
    split at hliteral
    · next x hx =>
      have hsign := Binary64.read?_of_isDigit (hkind.of_number hk) hx
      exact ⟨x, (Except.ok.inj hliteral).symm, hsign⟩
    · cases hliteral
  · intro hk
    obtain ⟨body, htake, hbody⟩ := hkind.of_string hk
    rw [List.take_succ_cons] at htake
    refine ⟨String.ofList body, ?_, by rwa [String.toList_ofList]⟩
    rw [hk, htake] at hliteral
    rw [← Except.ok.inj hliteral, List.cons_append, List.drop_one, List.tail_cons,
      List.dropLast_concat]
  · intro hk
    obtain ⟨hword, hname⟩ := hkind.of_identifier hk
    rw [List.take_succ_cons] at hword hname
    rw [isName, hlexeme, String.toList_ofList, hword, hname]
    rfl
  · rw [hlexeme]
    intro hempty
    have hnil := congrArg String.toList hempty
    rw [String.toList_ofList] at hnil
    cases hnil

/-! ### Runs -/

namespace Lexer

/-- The lexer takes the tokens off its text. -/
inductive Takes : Lexer → List Token → Lexer → Prop where
  | nil (l : Lexer) : Takes l [] l
  | cons {l m l' : Lexer} {t : Token} {ts : List Token} (h : l.next? = some (.ok t, m))
    (hs : Takes m ts l') : Takes l (t :: ts) l'

theorem Takes.append {l m l' : Lexer} {ts us : List Token} (h : l.Takes ts m)
    (h' : m.Takes us l') :
  l.Takes (ts ++ us) l'
  := by
  induction h with
  | nil l => apply h'
  | cons ht _ ih => exact .cons ht (ih h')

theorem next?_eq_none_iff {l : Lexer} :
  l.next? = none ↔ l.finished = true
  := by
  unfold next?
  split
  · next h => simp [h]
  · next h =>
    simp only [h]
    split
    · simp
    · split <;> simp

theorem items_of_next? {l m : Lexer} {item : Except LexError Token}
    (h : l.next? = some (item, m)) :
  l.items = item :: m.items
  := by
  rw [items]
  split
  · next hnone => simp [h] at hnone
  · next hsome =>
    rw [h] at hsome
    cases hsome
    rfl

theorem items_of_finished {l : Lexer} (h : l.finished = true) :
  l.items = []
  := by
  rw [items]
  split
  · rfl
  · next hsome => simp [next?_eq_none_iff.mpr h] at hsome

theorem mapM_cons_eq_ok_iff {item : Except LexError Token} {items : List (Except LexError Token)}
    {ts : List Token} :
  (item :: items).mapM id = .ok ts
    ↔ ∃ t us, ts = t :: us ∧ item = .ok t ∧ items.mapM id = .ok us
  := by
  rw [List.mapM_cons]
  cases item with
  | error e => simp [bind, Except.bind]
  | ok t =>
    cases items.mapM id with
    | error e => simp [bind, Except.bind]
    | ok us => simp [bind, Except.bind, pure, Except.pure, eq_comm]

/-- The items of a lexer are free of errors exactly if it takes tokens until it has finished. -/
theorem mapM_items_eq_ok_iff (l : Lexer) (ts : List Token) :
  l.items.mapM id = .ok ts ↔ ∃ m, l.Takes ts m ∧ m.finished = true
  := by
  constructor
  · intro h
    induction hsteps : l.stepsLeft using Nat.strongRecOn generalizing l ts with
    | ind n ih =>
      cases hnext : l.next? with
      | none =>
        have hfinished := next?_eq_none_iff.mp hnext
        rw [items_of_finished hfinished] at h
        cases h
        exact ⟨l, .nil l, hfinished⟩
      | some next =>
        obtain ⟨item, m⟩ := next
        rw [items_of_next? hnext] at h
        obtain ⟨t, us, rfl, rfl, hus⟩ := mapM_cons_eq_ok_iff.mp h
        obtain ⟨m', htakes, hfinished⟩ :=
          ih m.stepsLeft (hsteps ▸ stepsLeft_next hnext) m us hus rfl
        exact ⟨m', .cons hnext htakes, hfinished⟩
  · rintro ⟨m, htakes, hfinished⟩
    induction htakes with
    | nil l =>
      rw [items_of_finished hfinished]
      rfl
    | @cons l m l' t ts hnext _ ih =>
      rw [items_of_next? hnext]
      apply mapM_cons_eq_ok_iff.mpr ⟨t, ts, rfl, rfl, ih hfinished⟩

/-- How a lexer gets its next token: it passes over white space, and is at the end of the text or
scans the token there. -/
inductive Finds (l : Lexer) : Token → Lexer → Prop where
  | ending {gaps : List Char} (hrest : l.rest = gaps) (hgaps : ∀ c ∈ gaps, isGap c = true) :
    Finds l (.endAt (l.position + gaps.length)) ⟨[], l.position + gaps.length, true⟩
  | token {gaps rest : List Char} {c : Char} {t : Token} {n : Nat}
    (hrest : l.rest = gaps ++ c :: rest) (hgaps : ∀ c ∈ gaps, isGap c = true)
    (hc : isGap c = false) (hscan : scan (l.position + gaps.length) c rest = .ok (t, n)) :
    Finds l t ⟨(c :: rest).drop n, t.stop, false⟩

theorem finds_of_next? {l m : Lexer} {t : Token} (h : l.next? = some (.ok t, m)) :
  l.Finds t m
  := by
  have hsplit : l.rest = l.rest.takeWhile isGap ++ l.rest.dropWhile isGap :=
    List.takeWhile_append_dropWhile.symm
  have hgaps : ∀ c ∈ l.rest.takeWhile isGap, isGap c = true :=
    List.all_eq_true.mp List.all_takeWhile
  unfold next? at h
  split at h
  · cases h
  · simp only at h
    split at h
    · next hrest =>
      cases h
      rw [hrest, List.append_nil] at hsplit
      exact .ending hsplit hgaps
    · next c rest hrest =>
      split at h
      · cases h
      · next hscan =>
        cases h
        have hc : isGap c = false := by
          have := List.head?_dropWhile_not isGap l.rest
          rw [hrest] at this
          simpa using this
        rw [hrest] at hsplit
        exact .token hsplit hgaps hc hscan

/-- A lexer that has finished takes no tokens. -/
theorem Takes.eq_nil_of_finished {l m : Lexer} {ts : List Token} (h : l.Takes ts m)
    (hl : l.finished = true) :
  ts = []
  := by
  cases h with
  | nil => rfl
  | cons hnext =>
    rw [next?_eq_none_iff.mpr hl] at hnext
    cases hnext

/-- What a lexer gives without an error: the end of the text, or a token as texts hold it. -/
inductive Gives (l : Lexer) : Token → Lexer → Prop where
  | ending {position : Nat} (hp : l.position ≤ position) :
    Gives l (.endAt position) ⟨[], position, true⟩
  | token {t : Token} {rest : List Char} (ht : t.IsRead) (hp : l.position ≤ t.position) :
    Gives l t ⟨rest, t.stop, false⟩

theorem gives_of_next? {l m : Lexer} {t : Token} (h : l.next? = some (.ok t, m)) :
  l.Gives t m
  := by
  cases finds_of_next? h with
  | ending => exact .ending (Nat.le_add_right _ _)
  | token _ _ _ hscan =>
    obtain ⟨hread, hposition⟩ := scan_isRead hscan
    exact .token hread (by rw [hposition]; exact Nat.le_add_right _ _)

end Lexer

theorem Token.IsRead.position_lt_stop {t : Token} (h : t.IsRead) :
  t.position < t.stop
  := by
  apply Nat.lt_add_of_pos_right
  apply Nat.pos_of_ne_zero
  simpa using h.lexeme

/-- Tokens as a text holds them from the byte `start` on: they stand one after the other, and
the last of them alone marks the end. -/
structure AreRead (start : Nat) (ts : List Token) : Prop where
  ending : ∃ body stop, ts = body ++ [.endAt stop] ∧ ∀ t ∈ body, t.IsRead
  positions : ts.Pairwise fun t u => t.position < u.position
  start : ∀ t ∈ ts, start ≤ t.position

theorem Lexer.Takes.areRead {l m : Lexer} {ts : List Token} (h : l.Takes ts m)
    (hl : l.finished = false) (hm : m.finished = true) :
  AreRead l.position ts
  := by
  induction h with
  | nil l =>
    rw [hl] at hm
    cases hm
  | @cons l m l' t ts hnext htakes ih =>
    cases gives_of_next? hnext with
    | @ending position hp =>
      obtain rfl := htakes.eq_nil_of_finished rfl
      constructor
      · exact ⟨[], position, rfl, fun _ h => nomatch h⟩
      · apply List.pairwise_singleton _ _
      · intro t ht
        rw [List.mem_singleton.mp ht]
        apply hp
    | @token _ rest ht hp =>
      obtain ⟨⟨body, stop, rfl, hbody⟩, hpositions, hstart⟩ := ih rfl hm
      have hlt := ht.position_lt_stop
      constructor
      · exact ⟨t :: body, stop, rfl, List.forall_mem_cons.mpr ⟨ht, hbody⟩⟩
      · refine List.pairwise_cons.mpr ⟨fun u hu => ?_, hpositions⟩
        apply Nat.lt_of_lt_of_le hlt (hstart u hu)
      · refine List.forall_mem_cons.mpr ⟨hp, fun u hu => ?_⟩
        apply Nat.le_trans hp (Nat.le_trans (Nat.le_of_lt hlt) (hstart u hu))

/-- The tokens of a text are those that its lexer takes until it has finished. -/
theorem tokenize_eq_ok_iff {s : String} {ts : List Token} :
  tokenize s = .ok ts ↔ ∃ m, (Lexer.ofString s).Takes ts m ∧ m.finished = true
  := Lexer.mapM_items_eq_ok_iff _ _

theorem areRead_of_tokenize {s : String} {ts : List Token} (h : tokenize s = .ok ts) :
  AreRead 0 ts
  := by
  obtain ⟨m, htakes, hfinished⟩ := tokenize_eq_ok_iff.mp h
  apply htakes.areRead rfl hfinished

/-- Of the tokens of a text only the last one marks the end. -/
theorem isEnd_of_tokenize {s : String} {body : List Token} {stop : Nat}
    (h : tokenize s = .ok (body ++ [.endAt stop])) :
  ∀ t ∈ body, t.isEnd = false
  := by
  obtain ⟨body', stop', heq, hread⟩ := (areRead_of_tokenize h).ending
  obtain ⟨rfl, -⟩ := List.append_inj' heq rfl
  exact fun t ht => (hread t ht).notEnd

end TableQuery.Filter
