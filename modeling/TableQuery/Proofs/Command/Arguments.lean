import Mathlib.Data.List.Basic
import TableQuery.Command.Arguments
import TableQuery.Proofs.Number.Numeral
import TableQuery.Proofs.Text.Blank

/-!
# Command lines in any order

A flag and its value spell a setting of an option, and pairs that spell the settings of some
arguments are read as these, in whatever order they come (`Command.read_in_any_order`).  A setting
is put in place of the earlier one of its option, and the other options stay as they are
(`Command.Draft.setting?_put`).  So what was read before some pairs counts only for the flags that
are not among them (`Command.readFrom_of_pads`): a pair is forgotten when its flag comes again, and
options that spell the arguments may as well be read on from the arguments themselves.
-/

namespace TableQuery

/-! ### Numbers -/

section

variable {cs rest : List Char} {n : UInt64}

/-- Digits for the number `n`, with or without a plus sign. -/
def SpellsCount (cs : List Char) (n : UInt64) : Prop :=
  ∃ digits, (cs = digits ∨ cs = '+' :: digits) ∧ IsDigits digits ∧ ofDigits digits = n.toNat

theorem fitWord?_natCast {m : Nat} :
  fitWord? m = some n ↔ m = n.toNat
  := by
  rw [fitWord?, Int.toNat_natCast]
  split
  next h =>
    rw [Option.some_inj, ← UInt64.toNat_inj, UInt64.toNat_ofNat_of_lt' (by omega)]
  next h =>
    have hlt : n.toNat < UInt64.size := n.toNat_lt
    simp only [reduceCtorEq, false_iff]
    omega

/-- A minus sign stands first, or what is left after the sign is read as it is. -/
theorem readSign_cases (cs : List Char) :
  (∃ rest, cs = '-' :: rest) ∨
    ∃ rest, readSign cs = (false, rest) ∧ (cs = rest ∨ cs = '+' :: rest)
  := by
  unfold readSign
  split
  · exact .inl ⟨_, rfl⟩
  · exact .inr ⟨_, rfl, .inr rfl⟩
  · exact .inr ⟨_, rfl, .inl rfl⟩

theorem readCount?_of_readSign (hsign : readSign cs = (false, rest)) :
  readCount? cs = some n ↔ IsDigits rest ∧ ofDigits rest = n.toNat
  := by
  have hread : readCount? cs = (readInt? cs).bind fitWord? := by
    unfold readCount?
    split
    · cases hsign
    · rfl
  rw [hread, Option.bind_eq_some_iff]
  constructor
  · rintro ⟨i, hi, hfit⟩
    obtain ⟨hdigits, rfl⟩ := (readInt?_eq_some_iff hsign).mp hi
    exact ⟨hdigits, fitWord?_natCast.mp hfit⟩
  · rintro ⟨hdigits, hn⟩
    exact ⟨_, (readInt?_eq_some_iff hsign).mpr ⟨hdigits, rfl⟩, fitWord?_natCast.mpr hn⟩

theorem readCount?_eq_some_iff :
  readCount? cs = some n ↔ SpellsCount cs n
  := by
  constructor
  · intro h
    rcases readSign_cases cs with ⟨rest, rfl⟩ | ⟨rest, hsign, hcs⟩
    · cases h
    · exact ⟨rest, hcs, (readCount?_of_readSign hsign).mp h⟩
  · rintro ⟨digits, rfl | rfl, hdigits⟩
    · apply (readCount?_of_readSign (readSign_of_isDigits hdigits.1)).mpr hdigits
    · apply (readCount?_of_readSign rfl).mpr hdigits

end

/-! ### Directions -/

theorem Text.isBlankChar_of_toLower {c : Char} (h : isBlankChar c.toLower = false) :
  isBlankChar c = false
  := by
  by_cases hupper : 65 ≤ c.toNat ∧ c.toNat ≤ 90
  · apply isBlankChar_of_range hupper rfl
  · rw [← toLower_eq_self hupper]
    apply h

namespace SortDirection

/-- The words for a direction. -/
def words : SortDirection → List String
  | ascending => ["asc", "ascending"]
  | descending => ["desc", "descending"]

/-- A word for the direction in any case, with any blanks around it. -/
def IsSpelled (d : SortDirection) (s : String) : Prop :=
  ∃ front word back, s.toList = front ++ word ++ back ∧
    (∀ c ∈ front, Text.isBlankChar c = true) ∧ (∀ c ∈ back, Text.isBlankChar c = true) ∧
    ∃ w ∈ d.words, Text.spells w word = true

variable {d : SortDirection} {s : String}

theorem read?_eq_some_iff_spells :
  read? s = some d ↔ ∃ w ∈ d.words, Text.spells w (Text.trim s.toList) = true
  := by
  simp only [read?, Text.spells, Bool.or_eq_true, decide_eq_true_eq]
  split
  next h => cases d <;> rcases h with h | h <;> simp [words, h]
  next hascending =>
    split
    next h => cases d <;> rcases h with h | h <;> simp [words, h]
    next hdescending => cases d <;> simp_all [words]

theorem isBlankChar_of_spells {w : String} {word : List Char} (hw : w ∈ d.words)
    (hword : Text.spells w word = true) {c : Char} (hc : c ∈ word) :
  Text.isBlankChar c = false
  := by
  have hletters : ∀ w ∈ d.words, w.toList.all (fun c => !Text.isBlankChar c) = true := by
    cases d <;> decide
  have hmem : c.toLower ∈ w.toList := by
    rw [← of_decide_eq_true hword]
    apply List.mem_map_of_mem hc
  apply Text.isBlankChar_of_toLower
  simpa using List.all_eq_true.mp (hletters w hw) _ hmem

theorem read?_eq_some_iff :
  read? s = some d ↔ d.IsSpelled s
  := by
  rw [read?_eq_some_iff_spells]
  constructor
  · rintro ⟨w, hw, hword⟩
    obtain ⟨front, back, hs, hfront, hback⟩ := Text.exists_eq_append_trim s.toList
    exact ⟨front, _, back, hs, hfront, hback, w, hw, hword⟩
  · rintro ⟨front, word, back, hs, hfront, hback, w, hw, hword⟩
    use w, hw
    rw [hs, Text.trim_append hfront (fun c hc => isBlankChar_of_spells hw hword hc) hback]
    apply hword

end SortDirection

namespace Command

/-! ### Settings -/

/-- An option together with what its value says. -/
inductive Setting where
  | file (path : String)
  | filter (text : String)
  | sort (column : String)
  | direction (order : SortDirection)
  | page (index : UInt64)
  | size (rows : UInt64)
  | exportTo (path : String)
  | policy (path : String)

namespace Setting

/-- The option that is set. -/
def flag : Setting → Flag
  | file _ => .file
  | filter _ => .filter
  | sort _ => .sort
  | direction _ => .direction
  | page _ => .page
  | size _ => .size
  | exportTo _ => .exportTo
  | policy _ => .policy

/-- The setting of an option that is not given. -/
def default? : Flag → Option Setting
  | .filter => some (filter "")
  | .direction => some (direction .ascending)
  | .page => some (page 0)
  | .file | .sort | .size | .exportTo | .policy => none

/-- The values for a setting. -/
def IsSpelled : Setting → String → Prop
  | file path, value | exportTo path, value | policy path, value => value = path
  | filter text, value => value = text
  | sort column, value => value = column
  | direction order, value => order.IsSpelled value
  | page n, value | size n, value => SpellsCount value.toList n

/-- A flag and a value for a setting. -/
def IsSpelledBy (s : Setting) (p : Flag × String) : Prop :=
  s.flag = p.1 ∧ s.IsSpelled p.2

/-- The options with a setting put in place of the earlier one of its option. -/
def put (d : Draft) : Setting → Draft
  | file path => { d with file? := some path }
  | filter text => { d with filter := text }
  | sort column => { d with sort? := some column }
  | direction order => { d with direction := order }
  | page index => { d with page := index }
  | size rows => { d with size? := some rows }
  | exportTo path => { d with exportTo? := some path }
  | policy path => { d with policy? := some path }

end Setting

namespace Draft

variable {d e : Draft} {p : Flag × String}

/-- The setting of an option among the options read so far. -/
def setting? (d : Draft) : Flag → Option Setting
  | .file => d.file?.map .file
  | .filter => some (.filter d.filter)
  | .sort => d.sort?.map .sort
  | .direction => some (.direction d.direction)
  | .page => some (.page d.page)
  | .size => d.size?.map .size
  | .exportTo => d.exportTo?.map .exportTo
  | .policy => d.policy?.map .policy

theorem setting?_start (f : Flag) :
  ({} : Draft).setting? f = Setting.default? f
  := by
  cases f <;> rfl

theorem setting?_put (d : Draft) (s : Setting) (f : Flag) :
  (s.put d).setting? f = if f = s.flag then some s else d.setting? f
  := by
  cases s <;> cases f <;> rfl

theorem flag_of_setting? {f : Flag} {s : Setting} (h : d.setting? f = some s) :
  s.flag = f
  := by
  cases f with
  | filter | direction | page =>
    cases h
    rfl
  | file | sort | size | exportTo | policy =>
    obtain ⟨x, -, hs⟩ := Option.map_eq_some_iff.mp h
    rw [← hs]
    rfl

theorem ext_setting? (h : ∀ f, d.setting? f = e.setting? f) :
  d = e
  := by
  have hfile : d.file? = e.file? := Option.map_injective (fun _ _ => Setting.file.inj) (h .file)
  have hfilter : d.filter = e.filter := Setting.filter.inj (Option.some.inj (h .filter))
  have hsort : d.sort? = e.sort? := Option.map_injective (fun _ _ => Setting.sort.inj) (h .sort)
  have hdirection : d.direction = e.direction :=
    Setting.direction.inj (Option.some.inj (h .direction))
  have hpage : d.page = e.page := Setting.page.inj (Option.some.inj (h .page))
  have hsize : d.size? = e.size? := Option.map_injective (fun _ _ => Setting.size.inj) (h .size)
  have hexport : d.exportTo? = e.exportTo? :=
    Option.map_injective (fun _ _ => Setting.exportTo.inj) (h .exportTo)
  have hpolicy : d.policy? = e.policy? :=
    Option.map_injective (fun _ _ => Setting.policy.inj) (h .policy)
  cases d
  cases e
  simp only [mk.injEq]
  exact ⟨hfile, hfilter, hsort, hdirection, hpage, hsize, hexport, hpolicy⟩

theorem put_eq_self {s : Setting} (h : d.setting? s.flag = some s) :
  s.put d = d
  := by
  apply ext_setting?
  intro f
  rw [setting?_put]
  split
  next hf => rw [hf, h]
  next => rfl

theorem readNumber_eq_ok_iff {f : Flag} {value : String} {n : UInt64} :
  readNumber f value = .ok n ↔ SpellsCount value.toList n
  := by
  rw [← readCount?_eq_some_iff, readNumber]
  cases readCount? value.toList <;> simp

/-- A pair spells a setting, which is put in, or it is refused whatever was read before. -/
theorem set_cases (p : Flag × String) :
  (∃ s : Setting, s.IsSpelledBy p ∧ ∀ d : Draft, d.set p.1 p.2 = .ok (s.put d)) ∨
    ∃ err, ∀ d : Draft, d.set p.1 p.2 = .error err
  := by
  obtain ⟨f, value⟩ := p
  cases f with
  | file => exact .inl ⟨.file value, ⟨rfl, rfl⟩, fun d => rfl⟩
  | filter => exact .inl ⟨.filter value, ⟨rfl, rfl⟩, fun d => rfl⟩
  | sort => exact .inl ⟨.sort value, ⟨rfl, rfl⟩, fun d => rfl⟩
  | exportTo => exact .inl ⟨.exportTo value, ⟨rfl, rfl⟩, fun d => rfl⟩
  | policy => exact .inl ⟨.policy value, ⟨rfl, rfl⟩, fun d => rfl⟩
  | direction =>
    simp only [set]
    cases hread : SortDirection.read? value with
    | none => exact .inr ⟨_, fun d => rfl⟩
    | some order =>
      exact .inl ⟨.direction order, ⟨rfl, SortDirection.read?_eq_some_iff.mp hread⟩, fun d => rfl⟩
  | page =>
    simp only [set]
    cases hread : readNumber .page value with
    | error err => exact .inr ⟨err, fun d => rfl⟩
    | ok n => exact .inl ⟨.page n, ⟨rfl, readNumber_eq_ok_iff.mp hread⟩, fun d => rfl⟩
  | size =>
    simp only [set]
    cases hread : readNumber .size value with
    | error err => exact .inr ⟨err, fun d => rfl⟩
    | ok n => exact .inl ⟨.size n, ⟨rfl, readNumber_eq_ok_iff.mp hread⟩, fun d => rfl⟩

theorem set_of_isSpelledBy {s : Setting} (h : s.IsSpelledBy p) (d : Draft) :
  d.set p.1 p.2 = .ok (s.put d)
  := by
  obtain ⟨f, value⟩ := p
  obtain ⟨hf, hvalue⟩ := h
  subst hf
  cases s with
  | file | filter | sort | exportTo | policy =>
    obtain rfl : value = _ := hvalue
    rfl
  | direction order =>
    simp only [Setting.flag, set, SortDirection.read?_eq_some_iff.mpr hvalue]
    rfl
  | page n | size n =>
    simp only [Setting.flag, set, readNumber_eq_ok_iff.mpr hvalue]
    rfl

end Draft

/-! ### Pairs of a flag and a value -/

/-- The words of some pairs. -/
def words (pairs : List (Flag × String)) : List String :=
  pairs.flatMap fun p => [p.1.word, p.2]

variable {d e : Draft} {p : Flag × String} {pairs padded : List (Flag × String)}

theorem Flag.ofWord?_word (f : Flag) :
  ofWord? f.word = some f
  := by
  cases f <;> decide

theorem readFrom_pair (rest : List String) :
  readFrom d (p.1.word :: p.2 :: rest) = (d.set p.1 p.2).bind fun d => readFrom d rest
  := by
  simp only [readFrom, Flag.ofWord?_word]
  cases d.set p.1 p.2 <;> rfl

theorem readFrom_pair_of_isSpelledBy {s : Setting} (h : s.IsSpelledBy p) (rest : List String) :
  readFrom d (p.1.word :: p.2 :: rest) = readFrom (s.put d) rest
  := by
  rw [readFrom_pair, Draft.set_of_isSpelledBy h]
  rfl

theorem readFrom_help {word : String} (h : isHelp word = true) (rest : List String) :
  readFrom d (word :: rest) = .ok .help
  := by
  have hflag : Flag.ofWord? word = none := by
    simp only [isHelp, Bool.or_eq_true, decide_eq_true_eq] at h
    rcases h with rfl | rfl <;> decide
  cases rest <;> simp [readFrom, hflag, h]

/-- Help that is asked for after valid pairs is given. -/
theorem readFrom_words_help (hpairs : ∀ p ∈ pairs, ∃ s : Setting, s.IsSpelledBy p) {word : String}
    (hword : isHelp word = true) (rest : List String) :
  readFrom d (words pairs ++ word :: rest) = .ok .help
  := by
  induction pairs generalizing d with
  | nil => apply readFrom_help hword
  | cons p pairs ih =>
    obtain ⟨⟨s, hs⟩, hpairs⟩ := List.forall_mem_cons.mp hpairs
    apply (readFrom_pair_of_isSpelledBy hs _).trans
    apply ih hpairs

/-! ### Pairs that are superseded -/

/-- The second pairs are the first ones and valid pairs among them, each of these before a pair
with the same flag. -/
inductive Pads : List (Flag × String) → List (Flag × String) → Prop where
  | nil :
    Pads [] []
  | keep (p : Flag × String) {pairs padded : List (Flag × String)} :
    Pads pairs padded → Pads (p :: pairs) (p :: padded)
  | add {p : Flag × String} {s : Setting} {pairs padded : List (Flag × String)} :
    s.IsSpelledBy p → p.1 ∈ pairs.map Prod.fst → Pads pairs padded → Pads pairs (p :: padded)

theorem Pads.refl (pairs : List (Flag × String)) :
  Pads pairs pairs
  := by
  induction pairs with
  | nil => apply nil
  | cons p pairs ih => apply ih.keep

/-- What was read before the pairs counts for the flags that are not among them. -/
theorem readFrom_of_pads (hpads : Pads pairs padded)
    (hagree : ∀ f, f ∉ pairs.map Prod.fst → d.setting? f = e.setting? f) (rest : List String) :
  readFrom d (words padded ++ rest) = readFrom e (words pairs ++ rest)
  := by
  induction hpads generalizing d e with
  | nil =>
    obtain rfl : d = e := Draft.ext_setting? fun f => hagree f List.not_mem_nil
    rfl
  | keep p _ ih =>
    apply (readFrom_pair _).trans
    apply Eq.trans _ (readFrom_pair _).symm
    rcases Draft.set_cases p with ⟨s, hs, hset⟩ | ⟨err, hset⟩
    · rw [hset, hset]
      apply ih
      intro f hf
      rw [Draft.setting?_put, Draft.setting?_put]
      split
      next => rfl
      next hne =>
        apply hagree
        rw [List.map_cons, List.mem_cons, not_or, ← hs.1]
        exact ⟨hne, hf⟩
    · rw [hset, hset]
      rfl
  | add hs hmem _ ih =>
    apply (readFrom_pair_of_isSpelledBy hs _).trans
    apply ih
    intro f hf
    rw [Draft.setting?_put, if_neg, hagree f hf]
    rintro rfl
    rw [hs.1] at hf
    exact hf hmem

end Command

/-! ### Arguments -/

namespace Arguments

open Command

/-- The options that make up the arguments. -/
def draft (a : Arguments) : Draft where
  file? := some a.file
  filter := a.filter
  sort? := a.sort?
  direction := a.direction
  page := a.page
  size? := a.size?
  exportTo? := a.exportTo?
  policy? := a.policy?

/-- Pairs that spell the arguments, in any order: each of them spells the setting of its flag, and
a flag that has no pair has its default. -/
structure IsWrittenBy (a : Arguments) (pairs : List (Flag × String)) : Prop where
  spelled : ∀ p ∈ pairs, ∃ s : Setting, s.IsSpelledBy p ∧ a.draft.setting? p.1 = some s
  complete : ∀ f, f ∉ pairs.map Prod.fst → a.draft.setting? f = Setting.default? f

end Arguments

namespace Command

/-- A text for a setting. -/
def Setting.value : Setting → String
  | file path | exportTo path | policy path => path
  | filter text => text
  | sort column => column
  | direction order => order.name
  | page n | size n => String.ofList (toDigits n.toNat)

theorem Setting.isSpelledBy_value (s : Setting) :
  s.IsSpelledBy (s.flag, s.value)
  := by
  have hnumber (n : UInt64) : SpellsCount (String.ofList (toDigits n.toNat)).toList n := by
    rw [String.toList_ofList]
    exact ⟨_, .inl rfl, isDigits_toDigits _, ofDigits_toDigits _⟩
  use rfl
  cases s with
  | file | filter | sort | exportTo | policy => rfl
  | direction order =>
    apply SortDirection.read?_eq_some_iff.mp
    cases order <;> decide +kernel
  | page n | size n => apply hnumber

/-- All arguments can be written. -/
theorem exists_isWrittenBy (a : Arguments) :
  ∃ pairs, a.IsWrittenBy pairs
  := by
  use (Flag.all.filterMap a.draft.setting?).map fun s => (s.flag, s.value)
  constructor
  case spelled =>
    intro p hp
    obtain ⟨s, hs, rfl⟩ := List.mem_map.mp hp
    obtain ⟨f, -, hf⟩ := List.mem_filterMap.mp hs
    use s, s.isSpelledBy_value
    rw [Draft.flag_of_setting? hf, hf]
  case complete =>
    intro f hf
    have hnone : a.draft.setting? f = none := by
      rw [Option.eq_none_iff_forall_ne_some]
      intro s hs
      apply hf
      rw [List.map_map, ← Draft.flag_of_setting? hs]
      have hmem : s ∈ Flag.all.filterMap a.draft.setting? :=
        List.mem_filterMap.mpr ⟨f, by cases f <;> decide, hs⟩
      apply List.mem_map_of_mem hmem
    -- Of the options that arguments can be without, none has a default.
    cases f with
    | sort | size | exportTo | policy => apply hnone
    | file | filter | direction | page => cases hnone

/-- Pairs that are in the options already do not change them. -/
theorem readFrom_words (hpairs : ∀ p ∈ pairs, ∃ s : Setting, s.IsSpelledBy p ∧
    d.setting? p.1 = some s) :
  readFrom d (words pairs) = d.finish
  := by
  induction pairs with
  | nil => rfl
  | cons p pairs ih =>
    obtain ⟨⟨s, hs, hsetting⟩, hpairs⟩ := List.forall_mem_cons.mp hpairs
    apply (readFrom_pair_of_isSpelledBy hs _).trans
    rw [← hs.1] at hsetting
    rw [Draft.put_eq_self hsetting]
    apply ih hpairs

theorem read_words {a : Arguments} (h : a.IsWrittenBy pairs) :
  read (words pairs) = .ok (.run a)
  := by
  have hagree : ∀ f, f ∉ pairs.map Prod.fst → ({} : Draft).setting? f = a.draft.setting? f := by
    intro f hf
    rw [Draft.setting?_start, h.complete f hf]
  have hstart := readFrom_of_pads (Pads.refl pairs) hagree []
  rw [List.append_nil] at hstart
  rw [read, hstart, readFrom_words h.spelled]
  rfl

/-- Command lines are read in any order.  Pairs that spell arguments are read as these, and all
arguments are spelled by some pairs.  Valid pairs that stand before a pair with the same flag make
no difference, and help that is asked for in the place of a flag is given after any valid pairs. -/
theorem read_in_any_order :
  (∀ (a : Arguments) (pairs : List (Flag × String)), a.IsWrittenBy pairs →
    read (words pairs) = .ok (.run a)) ∧
  (∀ a : Arguments, ∃ pairs, a.IsWrittenBy pairs) ∧
  (∀ pairs padded : List (Flag × String), Pads pairs padded → ∀ rest,
    read (words padded ++ rest) = read (words pairs ++ rest)) ∧
  (∀ pairs : List (Flag × String), (∀ p ∈ pairs, ∃ s : Setting, s.IsSpelledBy p) →
    ∀ word ∈ ["-h", "--help"], ∀ rest, read (words pairs ++ word :: rest) = .ok .help)
  := by
  refine ⟨fun a pairs => read_words, exists_isWrittenBy, ?_, ?_⟩
  · intro pairs padded hpads rest
    apply readFrom_of_pads hpads (fun f _ => rfl)
  · intro pairs hpairs word hword rest
    have hhelp : isHelp word = true := by
      rcases List.mem_pair.mp hword with rfl | rfl <;> rfl
    apply readFrom_words_help hpairs hhelp

/-- Values may look like flags, and a plus sign, blanks and capitals are allowed where a number or
a direction is spelled. -/
theorem read_in_any_order_of_flags_as_values :
  let a : Arguments := ⟨"--help", "--page", none, .descending, 7, none, some "-h", none⟩
  let pairs := [(.page, "+07"), (.direction, " DESC"), (.filter, "--page"), (.exportTo, "-h"),
    (.file, "--help")]
  let padded := (.file, "--file") :: (.page, "18446744073709551615") :: pairs
  a.IsWrittenBy pairs ∧ Pads pairs padded ∧
    read ["--file", "--file", "--page", "18446744073709551615", "--page", "+07", "--dir", " DESC",
      "--filter", "--page", "--export", "-h", "--file", "--help"] = .ok (.run a) ∧
    read ["--page", "+07", "--dir", " DESC", "--filter", "--page", "--export", "-h", "--file",
      "--help", "-h", "--bogus"] = .ok .help
  := by
  intro a pairs padded
  have hseven : SpellsCount "+07".toList 7 := readCount?_eq_some_iff.mp (by decide +kernel)
  have hlargest : SpellsCount "18446744073709551615".toList 18446744073709551615 :=
    readCount?_eq_some_iff.mp (by decide +kernel)
  have hdescending : SortDirection.descending.IsSpelled " DESC" :=
    SortDirection.read?_eq_some_iff.mp (by decide +kernel)
  have hwritten : a.IsWrittenBy pairs := by
    constructor
    case spelled =>
      simp only [pairs, List.forall_mem_cons, List.not_mem_nil, false_imp_iff, implies_true,
        and_true]
      exact ⟨⟨.page 7, ⟨rfl, hseven⟩, rfl⟩, ⟨.direction .descending, ⟨rfl, hdescending⟩, rfl⟩,
        ⟨.filter "--page", ⟨rfl, rfl⟩, rfl⟩, ⟨.exportTo "-h", ⟨rfl, rfl⟩, rfl⟩,
        ⟨.file "--help", ⟨rfl, rfl⟩, rfl⟩⟩
    case complete =>
      intro f hf
      cases f with
      | sort | size | policy => rfl
      | file | filter | direction | page | exportTo => exact absurd (by decide) hf
  have hpads : Pads pairs padded :=
    .add (s := .file "--file") ⟨rfl, rfl⟩ (by decide)
      (.add (s := .page 18446744073709551615) ⟨rfl, hlargest⟩ (by decide) (.refl pairs))
  obtain ⟨hread, -, hpadded, hhelp⟩ := read_in_any_order
  refine ⟨hwritten, hpads, ?_, ?_⟩
  · apply (hpadded pairs padded hpads []).trans
    rw [List.append_nil]
    apply hread a pairs hwritten
  · have hvalid : ∀ p ∈ pairs, ∃ s : Setting, s.IsSpelledBy p := by
      intro p hp
      obtain ⟨s, hs, -⟩ := hwritten.spelled p hp
      use s
    apply hhelp pairs hvalid "-h" List.mem_cons_self ["--bogus"]

end Command

end TableQuery
