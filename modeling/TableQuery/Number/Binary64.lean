/-!
# Double-precision numbers

A `Binary64` is a sign and a magnitude, the exponent and fraction fields read as one
natural number.  Magnitudes grow with the numbers they stand for, so both orders of doubles
are orders of integers: `Binary64.signed` gives the numeric order, in which the two zeros
agree, and `Binary64.rank` the total order, in which they differ and every NaN has a place.

The number of a finite magnitude is a multiple of 2⁻¹⁰⁷⁴, and `Binary64.units` says which.
`Binary64.nearest` goes the other way, from a ratio of such units to the nearest magnitude,
ties to the even one; everything that rounds goes through it.
-/

namespace TableQuery

/-- The number of magnitudes, 2⁶³. -/
def Binary64.magnitudes : Nat := 0x8000000000000000

/-- A double: its sign, and its exponent and fraction fields as one number. -/
structure Binary64 where
  negative : Bool
  magnitude : Nat
  magnitude_lt : magnitude < Binary64.magnitudes
  deriving DecidableEq

namespace Binary64

/-- The magnitude of the two infinities.  Larger magnitudes are not numbers. -/
def infinite : Nat := 0x7FF0000000000000

theorem infinite_lt :
  infinite < magnitudes
  := by decide

/-- The double with the given sign and magnitude, no larger than infinity. -/
def ofMagnitude (negative : Bool) (magnitude : Nat) : Binary64 where
  negative
  magnitude := min magnitude infinite
  magnitude_lt := Nat.lt_of_le_of_lt (Nat.min_le_right _ _) infinite_lt

/-- The positive zero. -/
def zero : Binary64 := ofMagnitude false 0

instance : Inhabited Binary64 := ⟨zero⟩

/-- The double with the given 64 bits. -/
def ofBits (bits : UInt64) : Binary64 where
  negative := magnitudes ≤ bits.toNat
  magnitude := bits.toNat % magnitudes
  magnitude_lt := Nat.mod_lt _ (by decide)

/-- The 64 bits of a double. -/
def toBits (x : Binary64) : UInt64 :=
  UInt64.ofNat (x.magnitude + if x.negative then magnitudes else 0)

/-- Whether `x` is not a number. -/
def isNaN (x : Binary64) : Bool :=
  infinite < x.magnitude

/-- Whether `x` is neither an infinity nor a NaN. -/
def isFinite (x : Binary64) : Bool :=
  x.magnitude < infinite

/-- The double with the opposite sign. -/
def neg (x : Binary64) : Binary64 :=
  { x with negative := !x.negative }

/-! ### Numbers and magnitudes -/

/-- The number of magnitudes with the same exponent field, 2⁵². -/
def fractions : Nat := 0x10000000000000

/-- How often the step between neighbouring doubles has doubled at a magnitude: the doubles
below 2⁵³ units are one unit apart, and each further 2⁵² magnitudes twice as far. -/
def doublings (magnitude : Nat) : Nat :=
  magnitude / fractions - 1

/-- The number of a finite magnitude, in units of 2⁻¹⁰⁷⁴. -/
def units (magnitude : Nat) : Nat :=
  (magnitude - doublings magnitude * fractions) * Nat.pow 2 (doublings magnitude)

/-- The integer nearest to `num / den`, a tie going to the even one. -/
def roundHalfEven (num den : Nat) : Nat :=
  let below := num / den
  let rest := num % den
  if 2 * rest < den ∨ 2 * rest = den ∧ below % 2 = 0 then below else below + 1

/-- The magnitude nearest to `num / den` units, a tie going to the even one. -/
def nearest (num den : Nat) : Nat :=
  let step := (num / den).log2 - 52
  step * fractions + roundHalfEven num (den * Nat.pow 2 step)

/-- One, in units of 2⁻¹⁰⁷⁴. -/
def one : Nat := Nat.pow 2 1074

/-- The double nearest to `num / den`, with the given sign. -/
def ofRatio (negative : Bool) (num den : Nat) : Binary64 :=
  ofMagnitude negative (nearest (num * one) den)

/-- The double nearest to an integer. -/
def ofInt (i : Int) : Binary64 :=
  ofRatio (i < 0) i.natAbs 1

/-- The product of two finite doubles, rounded. -/
def mul (x y : Binary64) : Binary64 :=
  ofMagnitude (x.negative ^^ y.negative) (nearest (units x.magnitude * units y.magnitude) one)

/-- The quotient of two finite doubles, rounded. -/
def div (x y : Binary64) : Binary64 :=
  ofRatio (x.negative ^^ y.negative) (units x.magnitude) (units y.magnitude)

/-- Whether a finite double is an integer. -/
def isWhole (x : Binary64) : Bool :=
  units x.magnitude % one = 0

/-- The integer part of a finite double, without its sign. -/
def integerPart (x : Binary64) : Nat :=
  units x.magnitude / one

/-! ### Orders -/

/-- The magnitude with the sign of the double, the same for both zeros. -/
def signed (x : Binary64) : Int :=
  if x.negative then -x.magnitude else x.magnitude

/-- The order of two doubles as numbers, unless one of them is not a number. -/
def compareNumbers? (x y : Binary64) : Option Ordering :=
  if x.isNaN || y.isNaN then none else some (compare x.signed y.signed)

/-- The place of a double among all doubles: the negative zero comes right before the
positive one, and the NaNs lie beyond the infinities of their sign. -/
def rank (x : Binary64) : Int :=
  if x.negative then -1 - x.magnitude else x.magnitude

/-- The total order of all doubles. -/
def compareRanks (x y : Binary64) : Ordering :=
  compare x.rank y.rank

end Binary64

end TableQuery
