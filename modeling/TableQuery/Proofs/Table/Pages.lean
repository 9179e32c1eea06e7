import Mathlib.Data.List.Forall2
import Mathlib.Data.List.TakeDrop
import Mathlib.Order.Bounds.Basic
import TableQuery.Table.Page

/-!
# Pages of a list

The sums and products of `Page.slice?` stop at the largest word, and for a list that is no
longer than that they are exact: page `i` holds the items from `i * size` on, `size` of them
(`Page.slice?_eq`), which are those at the positions between two multiples of `size`
(`Page.itemsBetween_eq`).  So the pages of a list, one after the other, are the list
(`Page.flatMap_pages`), and they are as few as can hold it (`Page.count_le_iff`).
-/

namespace TableQuery.Page

variable {α : Type}

/-- Stopping at the largest word is no loss where a number stops earlier. -/
theorem min_saturate {n total : Nat} (h : total ≤ largestWord) :
  min (saturate n) total = min n total
  := by
  rw [saturate, Nat.min_assoc, Nat.min_eq_right h]

/-- A page of a list, counted without words. -/
theorem slice?_eq {items : List α} {size : UInt64} (hsize : size ≠ 0)
    (h : items.length ≤ largestWord) (index : UInt64) :
  slice? items index size
    = some ⟨(items.drop (index.toNat * size.toNat)).take size.toNat, index, size, items.length⟩
  := by
  have hcontent : ∀ start, (items.drop (min start items.length)).take
        (min (min start items.length + size.toNat) items.length - min start items.length)
      = (items.drop start).take size.toNat := by
    intro start
    rcases Nat.le_total start items.length with hstart | hstart
    · rw [Nat.min_eq_left hstart, ← Nat.sub_min_sub_right, Nat.add_sub_cancel_left,
        ← List.length_drop, ← List.take_take, List.take_length]
    · simp [Nat.min_eq_right hstart, List.drop_eq_nil_of_le hstart]
  simp only [slice?, hsize, if_false, min_saturate h, hcontent]

/-- The stretches of `size` items from the first `n` multiples of `size` on. -/
theorem flatMap_range_stretches (items : List α) (size n : Nat) :
  ((List.range n).flatMap fun i => (items.drop (i * size)).take size) = items.take (n * size)
  := by
  induction n with
  | zero => simp
  | succ n ih =>
    rw [List.range_succ, List.flatMap_append, List.flatMap_singleton, ih, Nat.succ_mul,
      List.take_add]

/-- The pages of a list, one after the other, are the list. -/
theorem flatMap_pages (items : List α) {size : Nat} (hsize : size ≠ 0) :
  ((List.range ((items.length + size - 1) / size)).flatMap fun i =>
      (items.drop (i * size)).take size)
    = items
  := by
  have hcount : items.length ≤ (items.length + size - 1) / size * size := by
    have hpos : 0 < size := Nat.pos_of_ne_zero hsize
    have hdiv := Nat.div_add_mod (items.length + size - 1) size
    have hmod := Nat.mod_lt (items.length + size - 1) hpos
    rw [Nat.mul_comm] at hdiv
    omega
  rw [flatMap_range_stretches, List.take_of_length_le hcount]

/-- There are no more pages than items. -/
theorem count_le_total (p : Page α) :
  p.count ≤ p.total
  := by
  rcases Nat.eq_zero_or_pos p.size.toNat with hsize | hsize
  · simp [count, hsize]
  · rw [count, Nat.div_le_iff_le_mul_add_pred hsize]
    have hmul : p.total ≤ p.size.toNat * p.total := Nat.le_mul_of_pos_left _ hsize
    omega

/-! ### Positions -/

/-- The items at the positions from `start` on and before `stop`, in their order. -/
def itemsBetween (items : List α) (start stop : Nat) : List α :=
  (items.zipIdx.filter fun p => start ≤ p.2 ∧ p.2 < stop).map Prod.fst

theorem filter_zipIdx_lt (items : List α) (k n : Nat) :
  (items.zipIdx k).filter (fun p => p.2 < k + n) = (items.take n).zipIdx k
  := by
  induction items generalizing k n with
  | nil => simp
  | cons a items ih =>
    cases n with
    | zero =>
      apply List.filter_eq_nil_iff.mpr
      intro p hp
      simpa using List.le_snd_of_mem_zipIdx hp
    | succ n =>
      have hrest := ih (k + 1) n
      rw [Nat.add_right_comm, Nat.add_assoc] at hrest
      rw [List.zipIdx_cons, List.take_succ_cons, List.zipIdx_cons, ← hrest]
      apply List.filter_cons_of_pos
      simp

theorem filter_zipIdx_le (items : List α) (k n : Nat) :
  (items.zipIdx k).filter (fun p => k + n ≤ p.2) = (items.drop n).zipIdx (k + n)
  := by
  induction items generalizing k n with
  | nil => simp
  | cons a items ih =>
    cases n with
    | zero =>
      apply List.filter_eq_self.mpr
      intro p hp
      simpa using List.le_snd_of_mem_zipIdx hp
    | succ n =>
      have hrest := ih (k + 1) n
      rw [Nat.add_right_comm, Nat.add_assoc] at hrest
      rw [List.zipIdx_cons, List.drop_succ_cons, ← hrest]
      apply List.filter_cons_of_neg
      simp

/-- The items of a stretch are those at its positions. -/
theorem itemsBetween_eq (items : List α) (start size : Nat) :
  itemsBetween items start (start + size) = (items.drop start).take size
  := by
  have hfrom := filter_zipIdx_le items 0 start
  have hbefore := filter_zipIdx_lt (items.drop start) start size
  rw [Nat.zero_add] at hfrom
  rw [← List.zipIdx_map_fst start ((items.drop start).take size), ← hbefore, ← hfrom,
    List.filter_filter, itemsBetween]
  congr 2
  funext p
  rw [Bool.decide_and, Bool.and_comm]

/-! ### The pages of a list -/

theorem count_le_iff {p : Page α} (hsize : p.size ≠ 0) {m : Nat} :
  p.count ≤ m ↔ p.total ≤ m * p.size.toNat
  := by
  have hpos : 0 < p.size.toNat := Nat.pos_of_ne_zero fun h => hsize (UInt64.toNat_inj.mp h)
  rw [count, Nat.div_le_iff_le_mul_add_pred hpos, Nat.mul_comm]
  omega

/-- A page is followed by another one if an item is left. -/
theorem hasNext_iff {p : Page α} (hsize : p.size ≠ 0) (htotal : p.total ≤ largestWord) :
  p.hasNext = true ↔ (p.index.toNat + 1) * p.size.toNat < p.total
  := by
  have hcount := p.count_le_total
  rw [hasNext, decide_eq_true_iff, saturate, ← Nat.not_le, ← Nat.not_le, ← count_le_iff hsize]
  omega

/-- The pages of a list, by their numbers. -/
theorem exists_pages {items : List α} {size : UInt64} (hsize : size ≠ 0)
    (h : items.length ≤ largestWord) :
  ∃ pages : List (Page α),
    List.Forall₂ (fun i p => p.index.toNat = i ∧ slice? items p.index size = some p)
      (List.range ((items.length + size.toNat - 1) / size.toNat)) pages ∧
    pages.flatMap content = items
  := by
  let page (i : Nat) : Page α :=
    ⟨(items.drop (i * size.toNat)).take size.toNat, .ofNat i, size, items.length⟩
  let number := (items.length + size.toNat - 1) / size.toNat
  refine ⟨(List.range number).map page, ?_, ?_⟩
  · rw [List.forall₂_map_right_iff, List.forall₂_same]
    intro i hi
    have hlt : i < UInt64.size := by
      have hcount := (page 0).count_le_total
      have hi : i < (page 0).count := List.mem_range.mp hi
      have hlargest : largestWord < UInt64.size := by decide
      simp only [page] at hcount hi
      omega
    have hindex : (UInt64.ofNat i).toNat = i := UInt64.toNat_ofNat_of_lt' hlt
    refine ⟨hindex, ?_⟩
    rw [slice?_eq hsize h, hindex]
  · rw [List.flatMap_map]
    apply flatMap_pages items fun h => hsize (UInt64.toNat_inj.mp h)

/-- Every page of a list is given, and although sums and products of words stop at the largest
one, it holds the items at the positions between the multiples of the size, it is followed by
another page if there is an item behind it, and the pages are the fewest that can hold the list,
which they make up one after the other. -/
theorem slice?_exact {items : List α} (hlength : items.length < UInt64.size) {size : UInt64}
    (hsize : 1 ≤ size) (index : UInt64) :
  ∃ page, slice? items index size = some page ∧
    page.content = itemsBetween items (index.toNat * size.toNat)
      ((index.toNat + 1) * size.toNat) ∧
    (page.hasNext = true ↔ ∃ k, k < items.length ∧ (index.toNat + 1) * size.toNat ≤ k) ∧
    IsLeast {m | items.length ≤ m * size.toNat} page.count ∧
    ∃ pages : List (Page α),
      List.Forall₂ (fun i p => p.index.toNat = i ∧ slice? items p.index size = some p)
        (List.range page.count) pages ∧
      pages.flatMap content = items
  := by
  have hne : size ≠ 0 := by
    rintro rfl
    cases hsize
  have htotal : items.length ≤ largestWord := Nat.le_pred_of_lt hlength
  refine ⟨_, slice?_eq hne htotal index, ?content, ?next, ?count, exists_pages hne htotal⟩
  case content => rw [Nat.succ_mul, itemsBetween_eq]
  case next =>
    rw [hasNext_iff hne htotal]
    constructor
    · exact fun h => ⟨_, h, Nat.le_refl _⟩
    · exact fun ⟨k, hk, hle⟩ => Nat.lt_of_le_of_lt hle hk
  case count =>
    constructor
    · exact (count_le_iff (p := ⟨_, index, size, items.length⟩) hne).mp (Nat.le_refl _)
    · exact fun m hm => (count_le_iff hne).mpr hm

/-- The last page that words can number is empty, also where its start is beyond all words. -/
theorem slice?_exact_of_largest :
  ∃ page, ["a", "b", "c"].length < UInt64.size ∧ (1 : UInt64) ≤ .ofNat largestWord ∧
    slice? ["a", "b", "c"] (.ofNat largestWord) (.ofNat largestWord) = some page ∧
    page.content = [] ∧ page.hasNext = false ∧ page.count = 1
  := by
  obtain ⟨page, hpage, hcontent, hnext, hcount, -⟩ :=
    @slice?_exact _ ["a", "b", "c"] (by decide) (.ofNat largestWord) (by decide)
      (.ofNat largestWord)
  refine ⟨page, by decide, by decide, hpage, ?_, ?_, ?_⟩
  · rw [hcontent]
    decide
  · rw [← Bool.not_eq_true, hnext]
    rintro ⟨k, hk, hle⟩
    have hlarge : 3 ≤ ((UInt64.ofNat largestWord).toNat + 1) * (UInt64.ofNat largestWord).toNat := by
      decide
    exact absurd (Nat.le_trans hlarge hle) (Nat.not_le.mpr hk)
  · have hone : IsLeast {m | ["a", "b", "c"].length ≤ m * (UInt64.ofNat largestWord).toNat} 1 := by
      constructor
      · decide +kernel
      · intro m hm
        rcases Nat.eq_zero_or_pos m with rfl | hpos
        · simp at hm
        · exact hpos
    exact hcount.unique hone

end TableQuery.Page
