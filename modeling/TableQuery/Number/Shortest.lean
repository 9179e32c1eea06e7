import TableQuery.Number.Decimal

/-!
# Shortest digits

A decimal number reads back as a double when the double is the nearest one to it.
`Binary64.shortest` is a number on the coarsest grid of multiples of a power of ten that
holds one reading back, and of two such numbers the nearer; a `Tie` says what happens when
both are equally near.
-/

namespace TableQuery

/-- What to do with a number half way between two grid points. -/
inductive Tie where
  | up
  | even
  deriving DecidableEq

/-- Whether a grid point half way below the number is chosen. -/
def Tie.keepsBelow : Tie → Nat → Bool
  | .up, _ => false
  | .even, below => below % 2 = 0

namespace Binary64

/-- Whether `d` rounds to the finite magnitude `m`. -/
def readsBack (m : Nat) (d : Decimal) : Bool :=
  nearest (d.num * one) d.den = m

/-- The number of the magnitude `m`, written out in full. -/
def exact (m : Nat) : Decimal :=
  ⟨units m * Nat.pow 5 1074, -1074⟩

/-- Of the two multiples of `10 ^ exponent` around `num / den` of them, the one that passes
the test, and the nearer one if both do. -/
def neighbour? (tie : Tie) (test : Decimal → Bool) (exponent : Int) (num den : Nat) :
    Option Decimal :=
  let below := num / den
  let rest := num % den
  match test ⟨below, exponent⟩, test ⟨below + 1, exponent⟩ with
  | true, true =>
    if 2 * rest < den ∨ 2 * rest = den ∧ tie.keepsBelow below then some ⟨below, exponent⟩
    else some ⟨below + 1, exponent⟩
  | true, false => some ⟨below, exponent⟩
  | false, true => some ⟨below + 1, exponent⟩
  | false, false => none

theorem test_of_neighbour? {tie : Tie} {test : Decimal → Bool} {exponent : Int} {num den : Nat}
    {d : Decimal} (h : neighbour? tie test exponent num den = some d) :
  test d = true
  := by
  simp only [neighbour?] at h
  split at h
  · next hbelow habove =>
    split at h
    · cases h
      exact hbelow
    · cases h
      exact habove
  · next hbelow _ =>
    cases h
    exact hbelow
  · next _ habove =>
    cases h
    exact habove
  · cases h

/-- The multiple of `10 ^ exponent` that reads back as `m`, if there is one: the nearer of
the two neighbours of the number of `m` on this grid that do. -/
def onGrid? (tie : Tie) (m : Nat) (exponent : Int) : Option Decimal :=
  neighbour? tie (readsBack m) exponent (units m * Nat.pow 10 (-exponent).toNat)
    (one * Nat.pow 10 exponent.toNat)

/-- The first hit among the grids of multiples of `10 ^ exponent` and of the `n - 1` powers
of ten below it. -/
def firstOnGrids (tie : Tie) (m : Nat) (n : Nat) (exponent : Int) : Decimal :=
  ((List.range n).findSome? fun i : Nat => onGrid? tie m (exponent - i)).getD (exact m)

/-- An exponent of ten whose power is no less than the number of `m`: its exponent of two
times a little more than the logarithm of two. -/
def topExponent (m : Nat) : Int :=
  ((units m).log2 - 1073 : Int) * 30103 / 100000 + 1

/-- The shortest decimal number that reads back as the finite magnitude `m`.  The search
ends, at the latest, on the grid of multiples of 10⁻¹⁰⁷⁴, which holds every finite double. -/
def shortest (tie : Tie) (m : Nat) : Decimal :=
  if m = 0 then ⟨0, 0⟩
  else firstOnGrids tie m (topExponent m + 1075).toNat (topExponent m)

end Binary64

end TableQuery
