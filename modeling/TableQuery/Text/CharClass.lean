/-!
# Character classes

A class of characters is given by ranges of code points, disjoint and in increasing
order, both ends included.  `CharClass.contains` decides membership by walking the
ranges up to the first one that does not lie below the character.
-/

namespace TableQuery

/-- A class of characters: disjoint ranges of code points in increasing order. -/
structure CharClass where
  ranges : List (Nat × Nat)

namespace CharClass

/-- Whether `n` lies in one of the ranges, which are in increasing order. -/
def inRanges (n : Nat) : List (Nat × Nat) → Bool
  | [] => false
  | (low, high) :: rest => if high < n then inRanges n rest else low ≤ n

/-- Whether the class holds the character `c`. -/
def contains (s : CharClass) (c : Char) : Bool :=
  inRanges c.toNat s.ranges

theorem exists_mem_of_inRanges {n : Nat} {ranges : List (Nat × Nat)}
    (h : inRanges n ranges = true) :
  ∃ r ∈ ranges, r.1 ≤ n ∧ n ≤ r.2
  := by
  induction ranges with
  | nil => simp [inRanges] at h
  | cons r rest ih =>
    obtain ⟨low, high⟩ := r
    rw [inRanges] at h
    split at h
    · obtain ⟨r, hr, hn⟩ := ih h
      exact ⟨r, List.mem_cons_of_mem _ hr, hn⟩
    · exact ⟨(low, high), List.mem_cons_self, by simpa using h, by omega⟩

end CharClass

end TableQuery
