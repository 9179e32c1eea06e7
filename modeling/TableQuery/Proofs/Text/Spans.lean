import Mathlib.Data.List.TakeDrop
import Mathlib.Data.List.TakeWhile

/-!
# Runs at the start of a list

Where a run of elements of one class ends is seen at the first element after it.
-/

namespace TableQuery

variable {α : Type} {p : α → Bool} {xs rest : List α}

/-- A run at the start of a list ends with the list, if what follows it cannot go on. -/
theorem takeWhile_append_of_head (xs : List α) (hrest : ∀ x ∈ rest.head?, p x = false) :
  (xs ++ rest).takeWhile p = xs.takeWhile p
  := by
  induction xs with
  | nil =>
    cases rest with
    | nil => rfl
    | cons x rest =>
      have hx : p x = false := hrest x rfl
      rw [List.nil_append, List.takeWhile_cons, hx]
      rfl
  | cons x xs ih => rw [List.cons_append, List.takeWhile_cons, List.takeWhile_cons, ih]

theorem takeWhile_append_of_ends (hxs : ∀ x ∈ xs, p x = true)
    (hrest : ∀ x ∈ rest.head?, p x = false) :
  (xs ++ rest).takeWhile p = xs
  := by
  rw [takeWhile_append_of_head xs hrest]
  apply List.takeWhile_eq_self_iff.mpr hxs

theorem dropWhile_append_of_ends (hxs : ∀ x ∈ xs, p x = true)
    (hrest : ∀ x ∈ rest.head?, p x = false) :
  (xs ++ rest).dropWhile p = rest
  := by
  rw [List.dropWhile_append_of_pos hxs]
  cases rest with
  | nil => simp
  | cons x rest =>
    have hx : p x = false := hrest x rfl
    rw [List.dropWhile_cons, hx]
    simp

/-- Every list is a run of one class and a rest that cannot go on with it. -/
theorem exists_span (p : α → Bool) (xs : List α) :
  ∃ run rest, xs = run ++ rest ∧ (∀ x ∈ run, p x = true) ∧ ∀ x ∈ rest.head?, p x = false
  := by
  refine ⟨xs.takeWhile p, xs.dropWhile p, List.takeWhile_append_dropWhile.symm,
    List.all_eq_true.mp List.all_takeWhile, fun x hx => ?_⟩
  have hhead := List.head?_dropWhile_not p xs
  rw [Option.mem_def.mp hx] at hhead
  simpa using hhead

/-- A list of one class is a run up to its end. -/
theorem span_eq_self (hxs : ∀ x ∈ xs, p x = true) :
  xs.span p = (xs, [])
  := by
  rw [List.span_eq_takeWhile_dropWhile, List.takeWhile_eq_self_iff.mpr hxs,
    List.dropWhile_eq_nil_iff.mpr hxs]

end TableQuery
