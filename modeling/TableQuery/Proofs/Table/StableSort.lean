import Mathlib.Data.List.Perm.Basic
import Mathlib.Order.Compare

/-!
# Stable sorts

A comparison may be a total preorder on the items of a list, whatever it is elsewhere
(`IsTotalPreorderOn`).  A stable sort of the items puts them in order, and those that compare equal
stay in their order (`IsStableSort`).  Merge sort gives the only one (`isStableSort_iff`).  So
leaving out items from a sorted list leaves the sort of the others (`IsStableSort.filter`), and a
stable sort by the swapped comparison is a reversed one (`IsStableSort.reverse`).
-/

namespace TableQuery

variable {α : Type} {cmp : α → α → Ordering} {items sorted : List α} {a b c : α}

/-- On the items of a list a comparison is a total preorder. -/
structure IsTotalPreorderOn (cmp : α → α → Ordering) (items : List α) : Prop where
  swap : ∀ a ∈ items, ∀ b ∈ items, (cmp a b).swap = cmp b a
  trans : ∀ a ∈ items, ∀ b ∈ items, ∀ c ∈ items,
    (cmp a b).isLE = true → (cmp b c).isLE = true → (cmp a c).isLE = true

/-- A list holds the items in order, and those that compare equal in the order that they had. -/
structure IsStableSort (cmp : α → α → Ordering) (items sorted : List α) : Prop where
  perm : sorted.Perm items
  ordered : sorted.Pairwise fun a b => (cmp a b).isLE = true
  stable : ∀ a ∈ items,
    sorted.filter (fun b => cmp a b = .eq) = items.filter (fun b => cmp a b = .eq)

namespace IsTotalPreorderOn

theorem refl (h : IsTotalPreorderOn cmp items) (ha : a ∈ items) :
  cmp a a = .eq
  := by
  have hswap := h.swap a ha a ha
  cases hcmp : cmp a a with
  | eq => rfl
  | lt | gt =>
    rw [hcmp] at hswap
    cases hswap

theorem eq_iff (h : IsTotalPreorderOn cmp items) (ha : a ∈ items) (hb : b ∈ items) :
  cmp a b = .eq ↔ (cmp a b).isLE = true ∧ (cmp b a).isLE = true
  := by
  rw [← h.swap a ha b hb]
  cases cmp a b <;> decide

/-- A total preorder the other way round is one, too. -/
theorem flip (h : IsTotalPreorderOn cmp items) :
  IsTotalPreorderOn (fun a b => cmp b a) items
  := by
  constructor
  case swap => exact fun a ha b hb => h.swap b hb a ha
  case trans => exact fun a ha b hb c hc hab hbc => h.trans c hc b hb a ha hbc hab

end IsTotalPreorderOn

/-- Items are in a total preorder by what stands for them if that is. -/
theorem isTotalPreorderOn_map_iff {β : Type} {f : β → α} {items : List β} :
  IsTotalPreorderOn cmp (items.map f) ↔ IsTotalPreorderOn (fun a b => cmp (f a) (f b)) items
  := by
  constructor
  · intro h
    constructor
    case swap =>
      intro a ha b hb
      apply h.swap _ (List.mem_map_of_mem ha) _ (List.mem_map_of_mem hb)
    case trans =>
      intro a ha b hb c hc
      apply h.trans _ (List.mem_map_of_mem ha) _ (List.mem_map_of_mem hb) _
        (List.mem_map_of_mem hc)
  · intro h
    constructor
    case swap =>
      simp only [List.forall_mem_map]
      apply h.swap
    case trans =>
      simp only [List.forall_mem_map]
      apply h.trans

/-! ### Merge sort -/

section MergeSort

/-- Items are sorted as members of their list are. -/
theorem map_val_mergeSort_attach (items : List α) (le : α → α → Bool) :
  (items.attach.mergeSort fun a b => le a b).map Subtype.val = items.mergeSort le
  := by
  rw [List.map_mergeSort (s := le) (fun _ _ _ _ => rfl), List.attach_map_subtype_val]

variable (h : IsTotalPreorderOn cmp items)

include h

theorem isLE_trans_attach (a b c : { a // a ∈ items }) (hab : (cmp a b).isLE = true)
    (hbc : (cmp b c).isLE = true) :
  (cmp a c).isLE = true
  := h.trans a a.2 b b.2 c c.2 hab hbc

theorem isLE_total_attach (a b : { a // a ∈ items }) :
  ((cmp a b).isLE || (cmp b a).isLE) = true
  := by
  rw [← h.swap a a.2 b b.2]
  cases cmp a b <;> rfl

/-- Merge sort puts the items in order. -/
theorem pairwise_mergeSort_of_isTotalPreorderOn :
  (items.mergeSort fun a b => (cmp a b).isLE).Pairwise fun a b => (cmp a b).isLE = true
  := by
  rw [← map_val_mergeSort_attach, List.pairwise_map]
  apply List.pairwise_mergeSort (isLE_trans_attach h) (isLE_total_attach h)

/-- Merge sort keeps the order of items that stand in order. -/
theorem sublist_mergeSort_of_isTotalPreorderOn {some : List α} (hsublist : some.Sublist items)
    (hordered : some.Pairwise fun a b => (cmp a b).isLE = true) :
  some.Sublist (items.mergeSort fun a b => (cmp a b).isLE)
  := by
  rw [← items.attach_map_subtype_val] at hsublist
  obtain ⟨members, hmembers, rfl⟩ := List.sublist_map_iff.mp hsublist
  rw [← map_val_mergeSort_attach]
  apply List.Sublist.map
  apply List.sublist_mergeSort (isLE_trans_attach h) (isLE_total_attach h) _ hmembers
  apply List.pairwise_map.mp hordered

/-- Merge sort is a stable sort. -/
theorem isStableSort_mergeSort :
  IsStableSort cmp items (items.mergeSort fun a b => (cmp a b).isLE)
  := by
  have hperm := items.mergeSort_perm fun a b => (cmp a b).isLE
  refine ⟨hperm, pairwise_mergeSort_of_isTotalPreorderOn h, ?_⟩
  intro a ha
  -- The items that compare equal to `a` stand in order, so they are a part of the sorted list.
  have hordered : (items.filter fun b => cmp a b = .eq).Pairwise
      fun b c => (cmp b c).isLE = true := by
    apply List.pairwise_of_forall_mem_list
    intro b hb c hc
    obtain ⟨hb, hab⟩ := List.mem_filter.mp hb
    obtain ⟨hc, hac⟩ := List.mem_filter.mp hc
    have hba := ((h.eq_iff ha hb).mp (of_decide_eq_true hab)).2
    have hac := ((h.eq_iff ha hc).mp (of_decide_eq_true hac)).1
    apply h.trans b hb a ha c hc hba hac
  have hsublist := sublist_mergeSort_of_isTotalPreorderOn h List.filter_sublist hordered
  have hfilter := hsublist.filter fun b => cmp a b = .eq
  simp only [List.filter_filter, Bool.and_self] at hfilter
  apply (hfilter.eq_of_length (hperm.filter _).length_eq.symm).symm

end MergeSort

/-! ### Uniqueness -/

/-- The first item of a sorted list is no greater than any item of the list. -/
theorem isLE_of_mem_of_pairwise_cons (h : IsTotalPreorderOn cmp items) (ha : a ∈ items)
    (hordered : (a :: sorted).Pairwise fun a b => (cmp a b).isLE = true) (hb : b ∈ a :: sorted) :
  (cmp a b).isLE = true
  := by
  rcases List.mem_cons.mp hb with rfl | hb
  · rw [h.refl ha]
    rfl
  · apply (List.pairwise_cons.mp hordered).1 b hb

/-- An item compares equal to itself, so it is found among the items that do. -/
theorem mem_of_filter_eq {other : List α} (h : IsTotalPreorderOn cmp items) (ha : a ∈ items)
    (hfilter : sorted.filter (fun b => cmp a b = .eq) = other.filter (fun b => cmp a b = .eq))
    (hmem : a ∈ sorted) :
  a ∈ other
  := by
  have hself : a ∈ sorted.filter fun b => cmp a b = .eq :=
    List.mem_filter.mpr ⟨hmem, decide_eq_true (h.refl ha)⟩
  rw [hfilter] at hself
  apply List.mem_of_mem_filter hself

/-- Sorted lists are equal if the items that compare equal are the same in both, in one order. -/
theorem eq_of_pairwise_of_filter_eq {other : List α} (h : IsTotalPreorderOn cmp items)
    (hsorted : ∀ a ∈ sorted, a ∈ items) (hother : ∀ a ∈ other, a ∈ items)
    (ordered : sorted.Pairwise fun a b => (cmp a b).isLE = true)
    (ordered' : other.Pairwise fun a b => (cmp a b).isLE = true)
    (hfilter : ∀ a ∈ items,
      sorted.filter (fun b => cmp a b = .eq) = other.filter (fun b => cmp a b = .eq)) :
  sorted = other
  := by
  induction sorted generalizing other with
  | nil =>
    cases other with
    | nil => rfl
    | cons b other =>
      have hb := hother b List.mem_cons_self
      cases mem_of_filter_eq h hb (hfilter b hb).symm List.mem_cons_self
  | cons a sorted ih =>
    obtain ⟨ha, hsorted'⟩ := List.forall_mem_cons.mp hsorted
    cases other with
    | nil => cases mem_of_filter_eq h ha (hfilter a ha) List.mem_cons_self
    | cons b other =>
      obtain ⟨hb, hother'⟩ := List.forall_mem_cons.mp hother
      -- Each first item is found in the other list too, so neither of them is the greater one.
      have hab := isLE_of_mem_of_pairwise_cons h ha ordered
        (mem_of_filter_eq h hb (hfilter b hb).symm List.mem_cons_self)
      have hba := isLE_of_mem_of_pairwise_cons h hb ordered'
        (mem_of_filter_eq h ha (hfilter a ha) List.mem_cons_self)
      have heq : cmp a b = .eq := (h.eq_iff ha hb).mpr ⟨hab, hba⟩
      have hfirst := hfilter a ha
      simp only [List.filter_cons, h.refl ha, heq, decide_true, if_true] at hfirst
      obtain rfl := (List.cons.inj hfirst).1
      congr 1
      apply ih hsorted' hother' ordered.of_cons ordered'.of_cons
      intro c hc
      have hrest := hfilter c hc
      rw [List.filter_cons, List.filter_cons] at hrest
      split at hrest
      · apply (List.cons.inj hrest).2
      · apply hrest

/-- Merge sort is the only stable sort. -/
theorem isStableSort_iff (h : IsTotalPreorderOn cmp items) :
  IsStableSort cmp items sorted ↔ sorted = items.mergeSort fun a b => (cmp a b).isLE
  := by
  have hmerge := isStableSort_mergeSort h
  constructor
  · intro hsorted
    apply eq_of_pairwise_of_filter_eq h (fun a => hsorted.perm.mem_iff.mp)
      (fun a => hmerge.perm.mem_iff.mp) hsorted.ordered hmerge.ordered
    intro a ha
    rw [hsorted.stable a ha, hmerge.stable a ha]
  · rintro rfl
    apply hmerge

/-! ### Sorts of other lists -/

/-- Where a test picks items that compare equal, and all of them, these stay in their order. -/
theorem IsStableSort.filter_eq {p : α → Bool} (h : IsStableSort cmp items sorted)
    (hp : ∀ a ∈ items, p a = true → ∀ b, p b = true ↔ cmp a b = .eq) :
  sorted.filter p = items.filter p
  := by
  by_cases hnone : ∀ a ∈ items, ¬ p a = true
  · have hnone' : ∀ a ∈ sorted, ¬ p a = true := fun a ha => hnone a (h.perm.mem_iff.mp ha)
    rw [List.filter_eq_nil_iff.mpr hnone, List.filter_eq_nil_iff.mpr hnone']
  · push Not at hnone
    obtain ⟨a, ha, hpa⟩ := hnone
    have hclass : p = fun b => decide (cmp a b = .eq) := by
      funext b
      rw [Bool.eq_iff_iff, decide_eq_true_iff]
      apply hp a ha hpa b
    rw [hclass]
    apply h.stable a ha

/-- A part of the items stands in a stable sort as in one of its own. -/
theorem IsStableSort.filter (h : IsStableSort cmp items sorted) (p : α → Bool) :
  IsStableSort cmp (items.filter p) (sorted.filter p)
  := by
  refine ⟨h.perm.filter p, h.ordered.sublist List.filter_sublist, ?_⟩
  intro a ha
  rw [List.filter_comm, h.stable a (List.mem_of_mem_filter ha), List.filter_comm]

/-- A stable sort of the reversed items, read from its end, is one by the swapped comparison. -/
theorem IsStableSort.reverse (hswap : ∀ a ∈ items, ∀ b ∈ items, (cmp a b).swap = cmp b a)
    (h : IsStableSort cmp items.reverse sorted) :
  IsStableSort (fun a b => (cmp a b).swap) items sorted.reverse
  := by
  have hmem : ∀ a ∈ sorted, a ∈ items := fun a ha => List.mem_reverse.mp (h.perm.mem_iff.mp ha)
  refine ⟨?_, ?_, ?_⟩
  · apply sorted.reverse_perm.trans (h.perm.trans items.reverse_perm)
  · rw [List.pairwise_reverse]
    apply h.ordered.imp_of_mem
    intro a b ha hb hle
    rwa [hswap b (hmem b hb) a (hmem a ha)]
  · intro a ha
    simp only [Ordering.swap_eq_eq]
    rw [List.filter_reverse, h.stable a (List.mem_reverse.mpr ha), List.filter_reverse,
      List.reverse_reverse]

/-- In a list in which all items before one that passes a test pass it too, those that pass come
first. -/
theorem filter_append_filter_not_of_pairwise {p : α → Bool}
    (hordered : items.Pairwise fun a b => p b = true → p a = true) :
  items.filter p ++ items.filter (!p ·) = items
  := by
  induction items with
  | nil => rfl
  | cons a items ih =>
    obtain ⟨hfirst, hordered⟩ := List.pairwise_cons.mp hordered
    cases hp : p a with
    | true =>
      rw [List.filter_cons_of_pos hp, List.filter_cons_of_neg (by simp [hp]), List.cons_append,
        ih hordered]
    | false =>
      have hnone : ∀ b ∈ a :: items, p b = false := by
        intro b hb
        apply Bool.eq_false_iff.mpr
        intro hpb
        rcases List.mem_cons.mp hb with rfl | hb
        · rw [hpb] at hp
          cases hp
        · rw [hfirst b hb hpb] at hp
          cases hp
      rw [List.filter_eq_nil_iff.mpr (by simpa using hnone), List.nil_append]
      apply List.filter_eq_self.mpr (by simpa using hnone)

/-- A list falls into three parts by a cut that its order respects. -/
theorem exists_eq_append_of_cut {cut : α → Ordering} (hordered : items.Pairwise fun a b =>
    (cut b = .lt → cut a = .lt) ∧ (cut a = .gt → cut b = .gt)) :
  ∃ below equal above, items = below ++ equal ++ above ∧
    (∀ a ∈ below, cut a = .lt) ∧ (∀ a ∈ equal, cut a = .eq) ∧ ∀ a ∈ above, cut a = .gt
  := by
  let less := fun a => decide (cut a = .lt)
  let notGreater := fun a => !decide (cut a = .gt)
  have hless : items.filter less ++ items.filter (!less ·) = items := by
    apply filter_append_filter_not_of_pairwise
    apply hordered.imp
    intro a b hab hb
    apply decide_eq_true (hab.1 (of_decide_eq_true hb))
  have hrest : (items.filter (!less ·)).filter notGreater
      ++ (items.filter (!less ·)).filter (!notGreater ·) = items.filter (!less ·) := by
    apply filter_append_filter_not_of_pairwise
    apply (hordered.sublist List.filter_sublist).imp
    intro a b hab hb
    simp only [notGreater, Bool.not_eq_true', decide_eq_false_iff_not] at hb ⊢
    exact fun ha => hb (hab.2 ha)
  refine ⟨items.filter less, (items.filter (!less ·)).filter notGreater,
    (items.filter (!less ·)).filter (!notGreater ·), ?_, ?_, ?_, ?_⟩
  · rw [List.append_assoc, hrest, hless]
  · intro a ha
    have hless := List.of_mem_filter ha
    apply of_decide_eq_true hless
  · intro a ha
    have hnotGreater := List.of_mem_filter ha
    have hnotLess := List.of_mem_filter (List.mem_of_mem_filter ha)
    simp only [less, notGreater, Bool.not_eq_true', decide_eq_false_iff_not] at hnotLess hnotGreater
    cases hcut : cut a with
    | lt => exact absurd hcut hnotLess
    | eq => rfl
    | gt => exact absurd hcut hnotGreater
  · intro a ha
    have hgreater := List.of_mem_filter ha
    simpa [notGreater] using hgreater

/-- A test of the side of a cut picks all of a part on one side, or nothing. -/
theorem filter_eq_ite_of_cut {cut : α → Ordering} {o : Ordering} (hcut : ∀ a ∈ items, cut a = o)
    (p : Ordering → Bool) :
  items.filter (fun a => p (cut a)) = if p o then items else []
  := by
  split
  · next ho =>
    apply List.filter_eq_self.mpr
    intro a ha
    rwa [hcut a ha]
  · next ho =>
    apply List.filter_eq_nil_iff.mpr
    intro a ha
    rwa [hcut a ha]

end TableQuery
