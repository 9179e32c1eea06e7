/-!
# Pages

A `Page` is one stretch of a list that is cut into stretches of one size.  Page numbers and
sizes are 64-bit words, and sums and products of them stop at the largest word, which no
list reaches.
-/

namespace TableQuery

/-- The largest 64-bit word. -/
def largestWord : Nat := UInt64.size - 1

/-- A number, or the largest word if the number is larger. -/
def saturate (n : Nat) : Nat := min n largestWord

/-- One page of a list: its items, its number counted from zero, the size of a full page and
the length of the list. -/
structure Page (α : Type) where
  content : List α
  index : UInt64
  size : UInt64
  total : Nat

namespace Page

variable {α β : Type}

/-- The number of pages of the list. -/
def count (p : Page α) : Nat :=
  (p.total + p.size.toNat - 1) / p.size.toNat

/-- Whether a page follows that is not empty. -/
def hasNext (p : Page α) : Bool :=
  saturate (p.index.toNat + 1) < p.count

/-- The page with `f` applied to its items. -/
def map (f : α → β) (p : Page α) : Page β :=
  { p with content := p.content.map f }

/-- Page `index` of `items` in pages of `size` items.  There is none when `size` is zero; a
page past the end is empty. -/
def slice? (items : List α) (index size : UInt64) : Option (Page α) :=
  if size = 0 then none
  else
    let total := items.length
    let start := min (saturate (index.toNat * size.toNat)) total
    let stop := min (saturate (start + size.toNat)) total
    some ⟨(items.drop start).take (stop - start), index, size, total⟩

/-- The message for a page size of zero. -/
def zeroSizeMessage : String :=
  "page size must be greater than zero, got 0"

theorem count_of_size_zero (p : Page α) (h : p.size = 0) :
  p.count = 0
  := by
  simp [count, h]

end Page

end TableQuery
