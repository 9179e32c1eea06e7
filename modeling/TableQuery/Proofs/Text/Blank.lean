import Mathlib.Data.List.TakeWhile
import TableQuery.Text.Blank
import TableQuery.Text.Letter

/-!
# Trimmed texts

Which characters are blank is seen at the ranges of their class (`Text.isBlankChar_of_range`).  A
character that is not blank stays when a text is trimmed (`Text.mem_trim`), and a text without
blank characters stays as it is (`Text.trim_eq_self`).
-/

namespace TableQuery.Text

variable {c : Char} {cs : List Char}

theorem isBlankChar_of_range {low high : Nat} (hc : low ≤ c.toNat ∧ c.toNat ≤ high)
    (hrange : CharClass.whiteSpace.ranges.all (fun w => w.2 < low ∨ high < w.1) = true) :
  isBlankChar c = false
  := by
  apply Bool.eq_false_iff.mpr
  intro hblank
  obtain ⟨w, hw, hlow, hhigh⟩ := CharClass.exists_mem_of_inRanges hblank
  have := List.all_eq_true.mp hrange w hw
  simp only [decide_eq_true_eq] at this
  omega

theorem isBlankChar_of_isLetter (h : isLetter c = true) :
  isBlankChar c = false
  := by
  obtain ⟨r, hr, hrange⟩ := CharClass.exists_mem_of_inRanges h
  have hall : CharClass.alphabetic.ranges.all (fun r =>
      CharClass.whiteSpace.ranges.all fun w => w.2 < r.1 ∨ r.2 < w.1) = true := by
    decide +kernel
  apply isBlankChar_of_range hrange (List.all_eq_true.mp hall r hr)

/-- Letters in upper case are the only characters that change. -/
theorem toLower_eq_self (h : ¬ (65 ≤ c.toNat ∧ c.toNat ≤ 90)) :
  c.toLower = c
  := dif_neg h

theorem mem_trim (hmem : c ∈ cs) (hc : isBlankChar c = false) :
  c ∈ trim cs
  := by
  have hdrop {cs : List Char} (hmem : c ∈ cs) : c ∈ cs.dropWhile isBlankChar := by
    rw [← List.takeWhile_append_dropWhile (p := isBlankChar) (l := cs)] at hmem
    rcases List.mem_append.mp hmem with hmem | hmem
    · have hblank := List.mem_takeWhile_imp hmem
      rw [hc] at hblank
      cases hblank
    · apply hmem
  rw [trim, trimRight, trimLeft, List.mem_reverse]
  apply hdrop
  rw [List.mem_reverse]
  apply hdrop hmem

theorem dropWhile_isBlankChar_eq_self (h : ∀ c ∈ cs, isBlankChar c = false) :
  cs.dropWhile isBlankChar = cs
  := by
  cases cs with
  | nil => rfl
  | cons c cs => rw [List.dropWhile_cons, h c List.mem_cons_self, if_neg Bool.false_ne_true]

theorem trim_eq_self (h : ∀ c ∈ cs, isBlankChar c = false) :
  trim cs = cs
  := by
  rw [trim, trimRight, trimLeft, dropWhile_isBlankChar_eq_self h,
    dropWhile_isBlankChar_eq_self (by simpa using h), List.reverse_reverse]

/-- Blanks around a text without blanks are taken off. -/
theorem trim_append {front back : List Char} (hfront : ∀ c ∈ front, isBlankChar c = true)
    (h : ∀ c ∈ cs, isBlankChar c = false) (hback : ∀ c ∈ back, isBlankChar c = true) :
  trim (front ++ cs ++ back) = cs
  := by
  rw [trim, trimLeft, List.append_assoc, List.dropWhile_append_of_pos hfront]
  cases cs with
  | nil => rw [List.nil_append, List.dropWhile_eq_nil_iff.mpr hback]; rfl
  | cons c cs =>
    have hhead : isBlankChar c = false := h c List.mem_cons_self
    rw [List.cons_append, List.dropWhile_cons, hhead, if_neg Bool.false_ne_true,
      ← List.cons_append, trimRight, List.reverse_append,
      List.dropWhile_append_of_pos (by simpa using hback),
      dropWhile_isBlankChar_eq_self fun d hd => h d (List.mem_reverse.mp hd),
      List.reverse_reverse]

/-- A text is what is left of it when it is trimmed, with blanks around it. -/
theorem exists_eq_append_trim (cs : List Char) :
  ∃ front back, cs = front ++ trim cs ++ back ∧ (∀ c ∈ front, isBlankChar c = true) ∧
    ∀ c ∈ back, isBlankChar c = true
  := by
  refine ⟨cs.takeWhile isBlankChar, ((trimLeft cs).reverse.takeWhile isBlankChar).reverse, ?_,
    fun c hc => List.mem_takeWhile_imp hc,
    fun c hc => List.mem_takeWhile_imp (List.mem_reverse.mp hc)⟩
  rw [List.append_assoc, trim, trimRight, ← List.reverse_append, List.takeWhile_append_dropWhile,
    List.reverse_reverse, trimLeft, List.takeWhile_append_dropWhile]

end TableQuery.Text
