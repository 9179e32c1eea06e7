/-!
# Records

A `Record α` maps column names to cells.  Its entries stand in increasing order of their
names, so two records with the same cells are equal.  `Record.get?` is the view of a record:
`Record.get?_insert` says what an insertion does to it, and `Record.ofList_concat` that a
list of cells is inserted from left to right.
-/

namespace TableQuery

/-- Cells by column name, the names strictly increasing. -/
structure Record (α : Type) where
  entries : List (String × α)
  ordered : entries.Pairwise fun a b => a.1 < b.1
  deriving DecidableEq

namespace Record

variable {α β : Type}

/-- The record without cells. -/
def empty : Record α := ⟨[], .nil⟩

instance : Inhabited (Record α) := ⟨empty⟩

/-- The cell for `name` in a list of entries. -/
def lookup (name : String) : List (String × α) → Option α
  | [] => none
  | (k, a) :: rest => if name = k then some a else lookup name rest

/-- The cell of a column, if the record has the column. -/
def get? (r : Record α) (name : String) : Option α :=
  lookup name r.entries

/-- Whether the record has a column. -/
def contains (r : Record α) (name : String) : Bool :=
  (r.get? name).isSome

/-- The number of columns. -/
def size (r : Record α) : Nat := r.entries.length

/-- Whether the record has no columns. -/
def isEmpty (r : Record α) : Bool := r.entries.isEmpty

/-- Puts an entry in its place in an ordered list, over an entry of the same name. -/
def insertEntry (name : String) (a : α) : List (String × α) → List (String × α)
  | [] => [(name, a)]
  | (k, b) :: rest =>
    if name < k then (name, a) :: (k, b) :: rest
    else if name = k then (name, a) :: rest
    else (k, b) :: insertEntry name a rest

theorem mem_insertEntry {name : String} {a : α} {e : String × α} {entries : List (String × α)}
    (h : e ∈ insertEntry name a entries) :
  e = (name, a) ∨ e ∈ entries
  := by
  induction entries with
  | nil => simpa [insertEntry] using h
  | cons f rest ih =>
    obtain ⟨k, b⟩ := f
    rw [insertEntry] at h
    split at h
    · simpa using h
    · split at h
      · rcases List.mem_cons.1 h with h | h
        · exact .inl h
        · exact .inr (List.mem_cons_of_mem _ h)
      · rcases List.mem_cons.1 h with h | h
        · exact .inr (h ▸ List.mem_cons_self)
        · exact (ih h).imp_right (List.mem_cons_of_mem _)

theorem ordered_insertEntry {name : String} {a : α} {entries : List (String × α)}
    (h : entries.Pairwise fun a b => a.1 < b.1) :
  (insertEntry name a entries).Pairwise fun a b => a.1 < b.1
  := by
  induction entries with
  | nil => exact List.pairwise_singleton _ _
  | cons f rest ih =>
    obtain ⟨k, b⟩ := f
    obtain ⟨hk, hrest⟩ := List.pairwise_cons.1 h
    rw [insertEntry]
    split
    · next hlt =>
      refine List.pairwise_cons.2 ⟨fun e he => ?_, h⟩
      rcases List.mem_cons.1 he with rfl | he
      · exact hlt
      · exact String.lt_trans hlt (hk e he)
    · next hnlt =>
      split
      · next heq =>
        subst heq
        exact List.pairwise_cons.2 ⟨hk, hrest⟩
      · next hne =>
        refine List.pairwise_cons.2 ⟨fun e he => ?_, ih hrest⟩
        rcases mem_insertEntry he with rfl | he
        · exact String.not_le.1 fun hle => hne (String.le_antisymm hle (String.not_lt.1 hnlt))
        · exact hk e he

/-- The record with the cell `a` for the column `name`. -/
def insert (r : Record α) (name : String) (a : α) : Record α :=
  ⟨insertEntry name a r.entries, ordered_insertEntry r.ordered⟩

/-- The record of a list of cells, of which the last one for a name counts. -/
def ofList (cells : List (String × α)) : Record α :=
  cells.foldl (fun r c => r.insert c.1 c.2) empty

/-! ### The view of a record -/

theorem lookup_insertEntry (name other : String) (a : α) (entries : List (String × α)) :
  lookup other (insertEntry name a entries)
    = if other = name then some a else lookup other entries
  := by
  induction entries with
  | nil => rfl
  | cons f rest ih =>
    obtain ⟨k, b⟩ := f
    rw [insertEntry]
    split
    · rfl
    · split
      · next heq =>
        subst heq
        by_cases h : other = name <;> simp [lookup, h]
      · next hne =>
        by_cases h : other = k
        · subst h
          simp [lookup, Ne.symm hne]
        · simp [lookup, h, ih]

@[simp]
theorem get?_empty (name : String) :
  (empty : Record α).get? name = none
  := rfl

theorem get?_insert (r : Record α) (name other : String) (a : α) :
  (r.insert name a).get? other = if other = name then some a else r.get? other
  := lookup_insertEntry name other a r.entries

theorem ofList_concat (cells : List (String × α)) (c : String × α) :
  ofList (cells ++ [c]) = (ofList cells).insert c.1 c.2
  := by
  simp [ofList]

end Record

end TableQuery
