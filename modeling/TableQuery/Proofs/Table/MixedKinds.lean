import TableQuery.Proofs.Number.Numeral
import TableQuery.Proofs.Table.Sorting

/-!
# Columns of mixed kinds

Numbers of one kind are sorted by their size, and values of different kinds by their texts.  The two
rules agree unless the texts of two numbers stand the other way round and the text of a value of
another kind stands between them (`Value.IsTwist`).  Such three values follow each other in a circle,
and every triple on which the order of a sort is not transitive is one of them
(`Value.isTwist_of_not_trans`).  So a sort key is a total preorder on rows exactly if the column has
no such triple (`SortKey.isTotalPreorderOn_compare_iff`).
-/

namespace TableQuery

/-! ### Texts of numbers -/

theorem Binary64.rank_inj {x y : Binary64} :
  x.rank = y.rank ↔ x = y
  := by
  constructor
  · intro h
    obtain ⟨negative, m, hm⟩ := x
    obtain ⟨negative', m', hm'⟩ := y
    cases negative <;> cases negative' <;> simp [rank] at h ⊢ <;> omega
  · rintro rfl
    rfl

theorem Binary64.plain_ne_empty (x : Binary64) :
  x.plain ≠ ""
  := by
  cases hfinite : x.isFinite with
  | true =>
    obtain ⟨rest, whole, fraction, htext, hnumeral, -⟩ := isNumeral_plain hfinite
    intro hempty
    rw [hempty, hnumeral.text] at htext
    simp at htext
  | false =>
    rw [plain, hfinite, signText, Bool.not_false, if_pos rfl]
    split
    · decide
    · cases x.negative <;> decide

theorem eq_empty_of_isLE_compare {s : String} (h : (compare s "").isLE = true) :
  s = ""
  := by
  cases hcmp : compare s "" with
  | eq => exact Std.compare_eq_iff_eq.mp hcmp
  | lt => exact absurd (compareOfLessAndEq_eq_lt.mp hcmp) (List.not_lt_nil s.toList)
  | gt =>
    rw [hcmp] at h
    cases h

namespace Value

variable {a b c v w low high other : Value} {values : List Value}

/-- The text of a number is not empty. -/
theorem display_ne_empty_of_isNumeric (h : v.isNumeric = true) :
  v.display ≠ ""
  := by
  cases v with
  | int i =>
    have hdigits := (isDigits_toDigits i.toInt.natAbs).1
    simp [display, intText, hdigits]
  | float x => apply x.plain_ne_empty
  | null | bool _ | text _ => cases h

/-! ### Numbers of one kind -/

/-- The values are numbers of one kind, which are sorted by their size. -/
structure ShareScale (v w : Value) : Prop where
  isNumeric : v.isNumeric = true
  type?_eq : v.type? = w.type?

instance (v w : Value) : Decidable (v.ShareScale w) :=
  decidable_of_iff (v.isNumeric = true ∧ v.type? = w.type?)
    ⟨fun h => ⟨h.1, h.2⟩, fun h => ⟨h.isNumeric, h.type?_eq⟩⟩

theorem ShareScale.symm (h : v.ShareScale w) :
  w.ShareScale v
  := by
  obtain ⟨hnumeric, htype⟩ := h
  refine ⟨?_, htype.symm⟩
  cases v <;> cases hnumeric <;> cases w <;> cases htype <;> rfl

theorem ShareScale.exists_type? (h : v.ShareScale w) :
  ∃ t, v.type? = some t ∧ w.type? = some t
  := by
  obtain ⟨hnumeric, htype⟩ := h
  rw [← htype]
  cases v <;> cases hnumeric <;> exact ⟨_, rfl, rfl⟩

/-- The order of the texts of two values. -/
def compareTexts (v w : Value) : Ordering :=
  compare v.display w.display

theorem compareTexts_trans (hab : (a.compareTexts b).isLE = true)
    (hbc : (b.compareTexts c).isLE = true) :
  (a.compareTexts c).isLE = true
  := Std.TransOrd.isLE_trans hab hbc

/-- All values but numbers of one kind are sorted by their texts, those of one kind included. -/
theorem compareForSort_of_not_shareScale (h : ¬ v.ShareScale w) :
  v.compareForSort w = v.compareTexts w
  := by
  cases v <;> cases w
  case int.int | float.float => exact absurd ⟨rfl, rfl⟩ h
  case bool.bool b c => cases b <;> cases c <;> decide
  all_goals rfl

/-- Numbers of one kind that are sorted as equal are equal. -/
theorem eq_of_compareForSort_eq (h : v.ShareScale w) (heq : v.compareForSort w = .eq) :
  v = w
  := by
  obtain ⟨hnumeric, htype⟩ := h
  cases v with
  | int i =>
    cases w <;> cases htype
    rw [Int64.toInt_inj.mp (Std.LawfulEqOrd.compare_eq_iff_eq.mp heq)]
  | float x =>
    cases w <;> cases htype
    rw [Binary64.rank_inj.mp (Std.LawfulEqOrd.compare_eq_iff_eq.mp heq)]
  | null | bool _ | text _ => cases hnumeric

/-! ### Twists -/

/-- Two numbers of one kind stand in their order and their texts do not, and the text of a value of
another kind stands between their texts. -/
structure IsTwist (low high other : Value) : Prop where
  shareScale : low.ShareScale high
  unlike : low.type? ≠ other.type?
  less : low.compareForSort high = .lt
  above : (high.compareTexts other).isLE = true
  below : (other.compareTexts low).isLE = true

instance (low high other : Value) : Decidable (IsTwist low high other) :=
  decidable_of_iff (low.ShareScale high ∧ low.type? ≠ other.type? ∧
      low.compareForSort high = .lt ∧ (high.compareTexts other).isLE = true ∧
      (other.compareTexts low).isLE = true)
    ⟨fun ⟨h, hu, hl, ha, hb⟩ => ⟨h, hu, hl, ha, hb⟩, fun ⟨h, hu, hl, ha, hb⟩ => ⟨h, hu, hl, ha, hb⟩⟩

/-- The values of a twist follow each other in a circle. -/
theorem IsTwist.circle (h : IsTwist low high other) :
  (high.compareForSort other).isLE = true ∧ (other.compareForSort low).isLE = true ∧
    high.compareForSort low = .gt
  := by
  have hhigh : ¬ high.ShareScale other := fun h' => h.unlike (h.shareScale.type?_eq.trans h'.type?_eq)
  have hlow : ¬ other.ShareScale low := fun h' => h.unlike h'.type?_eq.symm
  rw [compareForSort_of_not_shareScale hhigh, compareForSort_of_not_shareScale hlow,
    ← compareForSort_swap, h.less]
  exact ⟨h.above, h.below, rfl⟩

/-- A twist has no missing value. -/
theorem IsTwist.ne_null (h : IsTwist low high other) :
  low ≠ null ∧ high ≠ null ∧ other ≠ null
  := by
  have hhigh := h.shareScale.symm.isNumeric
  refine ⟨?_, ?_, ?_⟩
  · rintro rfl
    cases h.shareScale.isNumeric
  · rintro rfl
    cases hhigh
  · rintro rfl
    apply display_ne_empty_of_isNumeric hhigh
    apply eq_empty_of_isLE_compare h.above

/-- Two numbers of one kind and a value that does not share their scale are a twist if they follow
each other in a circle. -/
theorem isTwist_of_circle (h : v.ShareScale w) (hother : ¬ v.ShareScale other) (hne : v ≠ w)
    (hvw : (v.compareForSort w).isLE = true) (hwother : (w.compareForSort other).isLE = true)
    (hother_v : (other.compareForSort v).isLE = true) :
  IsTwist v w other
  := by
  have hunlike : v.type? ≠ other.type? := fun htype => hother ⟨h.isNumeric, htype⟩
  refine ⟨h, hunlike, ?less, ?above, ?below⟩
  case less =>
    cases hcmp : v.compareForSort w with
    | lt => rfl
    | eq => exact absurd (eq_of_compareForSort_eq h hcmp) hne
    | gt =>
      rw [hcmp] at hvw
      cases hvw
  case above =>
    rwa [← compareForSort_of_not_shareScale fun h' => hunlike (h.type?_eq.trans h'.type?_eq)]
  case below => rwa [← compareForSort_of_not_shareScale fun h' => hother h'.symm]

/-- Where the order of a sort is not transitive, the three values are a twist. -/
theorem isTwist_of_not_trans (hab : (a.compareForSort b).isLE = true)
    (hbc : (b.compareForSort c).isLE = true) (hac : ¬ (a.compareForSort c).isLE = true) :
  IsTwist c a b ∨ IsTwist a b c ∨ IsTwist b c a
  := by
  have hca : (c.compareForSort a).isLE = true := by
    rw [← compareForSort_swap]
    cases hcmp : a.compareForSort c <;> simp [hcmp] at hac ⊢
  have hne_ca : c ≠ a := by
    rintro rfl
    exact hac hca
  have hne_ab : a ≠ b := by
    rintro rfl
    exact hac hbc
  have hne_bc : b ≠ c := by
    rintro rfl
    exact hac hab
  have hmixed {t : ColumnType} (ha : a.type? = some t) (hb : b.type? = some t) :
      c.type? ≠ some t :=
    fun hc => hac (compareForSort_trans ha hb hc hab hbc)
  -- Texts are in a transitive order, so two of the values share a scale.
  by_cases hscale_ca : c.ShareScale a
  · obtain ⟨t, hc, ha⟩ := hscale_ca.exists_type?
    refine .inl (isTwist_of_circle hscale_ca (fun h => ?_) hne_ca hca hab hbc)
    exact hmixed ha (h.type?_eq.symm.trans hc) hc
  · by_cases hscale_ab : a.ShareScale b
    · refine .inr (.inl (isTwist_of_circle hscale_ab (fun h => ?_) hne_ab hab hbc hca))
      exact hscale_ca h.symm
    · by_cases hscale_bc : b.ShareScale c
      · refine .inr (.inr (isTwist_of_circle hscale_bc (fun h => ?_) hne_bc hbc hca hab))
        exact hscale_ab h.symm
      · rw [compareForSort_of_not_shareScale hscale_ab] at hab
        rw [compareForSort_of_not_shareScale hscale_bc] at hbc
        rw [compareForSort_of_not_shareScale fun h => hscale_ca h.symm] at hac
        exact absurd (compareTexts_trans hab hbc) hac

/-- Where the order of cells is not transitive, they are a twist. -/
theorem isTwist_of_not_trans_cells (hab : (a.compareCells b).isLE = true)
    (hbc : (b.compareCells c).isLE = true) (hac : ¬ (a.compareCells c).isLE = true) :
  IsTwist c a b ∨ IsTwist a b c ∨ IsTwist b c a
  := by
  have ha : a ≠ null := by
    rintro rfl
    apply hac
    cases c <;> rfl
  have hb : b ≠ null := by
    rintro rfl
    exact ha (isLE_compareCells_null_iff.mp hab)
  have hc : c ≠ null := by
    rintro rfl
    exact hb (isLE_compareCells_null_iff.mp hbc)
  rw [compareCells_of_ne_null ha hb] at hab
  rw [compareCells_of_ne_null hb hc] at hbc
  rw [compareCells_of_ne_null ha hc] at hac
  apply isTwist_of_not_trans hab hbc hac

theorem IsTwist.circle_cells (h : IsTwist low high other) :
  (high.compareCells other).isLE = true ∧ (other.compareCells low).isLE = true ∧
    high.compareCells low = .gt
  := by
  obtain ⟨hlow, hhigh, hother⟩ := h.ne_null
  rw [compareCells_of_ne_null hhigh hother, compareCells_of_ne_null hother hlow,
    compareCells_of_ne_null hhigh hlow]
  apply h.circle

/-- Three of the values are a twist. -/
def HasTwist (values : List Value) : Prop :=
  ∃ low ∈ values, ∃ high ∈ values, ∃ other ∈ values, IsTwist low high other

instance (values : List Value) : Decidable (HasTwist values) :=
  inferInstanceAs (Decidable (∃ low ∈ values, ∃ high ∈ values, ∃ other ∈ values,
    IsTwist low high other))

/-- Values of one kind have no twist, whatever is missing among them. -/
theorem not_hasTwist_of_type? {t : ColumnType}
    (h : ∀ v ∈ values, v = null ∨ v.type? = some t) :
  ¬ HasTwist values
  := by
  rintro ⟨low, hlow, _, -, other, hother, htwist⟩
  obtain ⟨hne, -, hne'⟩ := htwist.ne_null
  apply htwist.unlike
  rw [(h low hlow).resolve_left hne, (h other hother).resolve_left hne']

/-- The order of cells is a total preorder on the cells that have no twist. -/
theorem isTotalPreorderOn_compareCells_iff :
  IsTotalPreorderOn compareCells values ↔ ¬ HasTwist values
  := by
  constructor
  · rintro h ⟨low, hlow, high, hhigh, other, hother, htwist⟩
    obtain ⟨hle, hle', hgt⟩ := htwist.circle_cells
    have htrans := h.trans high hhigh other hother low hlow hle hle'
    rw [hgt] at htrans
    cases htrans
  · intro h
    refine ⟨fun v _ w _ => compareCells_swap v w, ?_⟩
    intro a ha b hb c hc hab hbc
    by_contra hac
    apply h
    rcases isTwist_of_not_trans_cells hab hbc hac with htwist | htwist | htwist
    · exact ⟨c, hc, a, ha, b, hb, htwist⟩
    · exact ⟨a, ha, b, hb, c, hc, htwist⟩
    · exact ⟨b, hb, c, hc, a, ha, htwist⟩

end Value

/-! ### Rows -/

/-- A sort key is a total preorder on rows exactly if the cells of its column have no twist. -/
theorem SortKey.isTotalPreorderOn_compare_iff {key : SortKey} {rows : List Row} :
  IsTotalPreorderOn key.compare rows ↔ ¬ Value.HasTwist (rows.map (Row.cell · key.column))
  := by
  rw [← Value.isTotalPreorderOn_compareCells_iff, isTotalPreorderOn_map_iff]
  obtain ⟨name, direction⟩ := key
  cases direction with
  | ascending => exact Iff.rfl
  | descending =>
    have hflip : (SortKey.mk name .descending).compare
        = fun r s => (Row.cell s name).compareCells (Row.cell r name) := by
      funext r s
      apply compare_descending
    rw [hflip]
    exact ⟨IsTotalPreorderOn.flip, IsTotalPreorderOn.flip⟩

/-- The order of a sort is reversed with its operands, and it is transitive but for twists, where it
turns in a circle.  So a sort key is a total preorder on rows exactly if the cells of its column
have no twist, and values of one kind never have one. -/
theorem compareForSort_turns_at_twists :
  (∀ v w : Value, (v.compareForSort w).swap = w.compareForSort v) ∧
  (∀ a b c : Value, (a.compareForSort b).isLE = true → (b.compareForSort c).isLE = true →
    ¬ (Value.IsTwist c a b ∨ Value.IsTwist a b c ∨ Value.IsTwist b c a) →
    (a.compareForSort c).isLE = true) ∧
  (∀ low high other : Value, Value.IsTwist low high other →
    (high.compareForSort other).isLE = true ∧ (other.compareForSort low).isLE = true ∧
      high.compareForSort low = .gt) ∧
  (∀ (key : SortKey) (rows : List Row), IsTotalPreorderOn key.compare rows ↔
    ¬ Value.HasTwist (rows.map (Row.cell · key.column))) ∧
  ∀ (t : ColumnType) (values : List Value),
    (∀ v ∈ values, v = .null ∨ v.type? = some t) → ¬ Value.HasTwist values
  := by
  refine ⟨Value.compareForSort_swap, ?triple, fun _ _ _ h => h.circle,
    fun _ _ => SortKey.isTotalPreorderOn_compare_iff, fun _ _ => Value.not_hasTwist_of_type?⟩
  intro a b c hab hbc htwist
  by_contra hac
  exact htwist (Value.isTwist_of_not_trans hab hbc hac)

/-- A column of texts, a truth value and one number of each kind has no twist. -/
theorem compareForSort_turns_at_twists_of_texts :
  ∃ rows : List Row, rows = [Value.text "9.5", .null, .int 10, .bool true, .float (.ofInt 9),
      .text "1a"].map (fun v => .ofList [("n", v)]) ∧
    ¬ Value.HasTwist (rows.map (Row.cell · "n")) ∧
    IsTotalPreorderOn (SortKey.mk "n" .descending).compare rows
  := by
  obtain ⟨-, -, -, hrows, -⟩ := compareForSort_turns_at_twists
  have hnone : ¬ Value.HasTwist (([Value.text "9.5", .null, .int 10, .bool true,
      .float (.ofInt 9), .text "1a"].map (fun v => (Record.ofList [("n", v)] : Row))).map
        (Row.cell · "n")) := by
    decide +kernel
  exact ⟨_, rfl, hnone, (hrows ⟨"n", .descending⟩ _).mpr hnone⟩

/-- Two floats are in order, and the second is in order with an integer, by their texts, but the
first one is not. -/
theorem not_trans_compareForSort_of_halves :
  ∃ a b c : Value, a = .float (.ofRatio false 19 2) ∧ b = .float (.ofRatio false 21 2) ∧
    c = .int 11 ∧ (a.compareForSort b).isLE = true ∧ (b.compareForSort c).isLE = true ∧
    a.compareForSort c = .gt ∧
    ¬ IsTotalPreorderOn (SortKey.mk "n" .ascending).compare
      ([a, b, c].map fun v => .ofList [("n", v)])
  := by
  refine ⟨_, _, _, rfl, rfl, rfl, by decide +kernel, by decide +kernel, by decide +kernel, ?_⟩
  rw [SortKey.isTotalPreorderOn_compare_iff, not_not]
  decide +kernel

end TableQuery
