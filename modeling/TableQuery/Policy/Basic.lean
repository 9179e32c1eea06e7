/-!
# Policies

A `Policy` sets the limits of a session and how strictly filters are read.  `Policy.flaw?`
says what is wrong with one that cannot be used.
-/

namespace TableQuery

/-- How a filter is read: in full, or up to the end of its first expression. -/
inductive Mode where
  | strict
  | lenient
  deriving DecidableEq, Repr

/-- The limits of a session.  Unless said otherwise a field has its strict value. -/
structure Policy where
  mode : Mode := .strict
  /-- The number of cells from which the type of a column is inferred. -/
  sampleSize : UInt64 := 100
  defaultPageSize : UInt64 := 20
  maxPageSize : UInt64 := 1000
  maxUploadBytes : UInt64 := 50 * 1024 * 1024
  /-- The deepest nesting of a filter: groups and chained comparisons count one level. -/
  maxDepth : UInt64 := 64
  deriving DecidableEq

namespace Policy

/-- The policy that reads filters in full. -/
def strict : Policy := {}

/-- The policy that ignores what follows the first expression of a filter. -/
def lenient : Policy := { mode := .lenient }

instance : Inhabited Policy := ⟨strict⟩

/-- Whether what follows a complete expression is ignored. -/
def allowsTrailing (p : Policy) : Bool :=
  p.mode = .lenient

/-- The page size for a request: at most the largest one, and the default when none is asked
for, or zero. -/
def pageSize (p : Policy) : Option UInt64 → UInt64
  | none => p.defaultPageSize
  | some size => if size = 0 then p.defaultPageSize else min size p.maxPageSize

/-- What can be wrong with a policy. -/
inductive Flaw where
  | noSample
  | noDepth
  | noPageSize
  | defaultAboveMax
  deriving DecidableEq, Repr

/-- The message for a flaw. -/
def Flaw.message : Flaw → String
  | noSample => "invalid policy: inference_sample_rows must be positive"
  | noDepth => "invalid policy: max_depth must be positive"
  | noPageSize => "invalid policy: page sizes must be positive"
  | defaultAboveMax => "invalid policy: default_page_size must not exceed max_page_size"

/-- The first flaw of a policy. -/
def flaw? (p : Policy) : Option Flaw :=
  if p.sampleSize = 0 then some .noSample
  else if p.maxDepth = 0 then some .noDepth
  else if p.defaultPageSize = 0 ∨ p.maxPageSize = 0 then some .noPageSize
  else if p.maxPageSize < p.defaultPageSize then some .defaultAboveMax
  else none

end Policy

end TableQuery
