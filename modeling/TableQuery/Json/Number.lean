import TableQuery.Number.Decimal
import TableQuery.Json.Basic

/-!
# JSON numbers

A numeral without fraction and exponent is an integer as long as it fits 64 bits, with a
sign if it is negative.  Any other numeral is a double, found in two roundings: the leading
digits that fit 64 bits are rounded to a double, and the result is multiplied or divided by
a power of ten.  A numeral beyond the largest double is unreadable.
-/

namespace TableQuery.Json

/-- The parts of a numeral: the digits before and after the point, and the exponent if one
is written. -/
structure Numeral where
  negative : Bool
  whole : List Char
  fraction : List Char
  exponent? : Option Int

/-- The leading digits of a numeral as far as they fit 64 bits, and the power of ten that
they are to be multiplied with. -/
structure Leading where
  digits : Nat
  exponent : Int
  full : Bool

namespace Leading

/-- Appends the digit `c` if the result fits 64 bits, the exponent becoming `taken`, and
leaves the digit out otherwise, the exponent becoming `left`. -/
def append (l : Leading) (c : Char) (taken left : Int) : Leading :=
  let digits := Nat.ofDigitChars 10 [c] l.digits
  if l.full || UInt64.size ≤ digits then ⟨l.digits, left, true⟩ else ⟨digits, taken, false⟩

/-- Appends the digits before the point; each one left out raises the exponent. -/
def appendWhole (l : Leading) (cs : List Char) : Leading :=
  cs.foldl (fun l c => l.append c l.exponent (l.exponent + 1)) l

/-- Appends the digits after the point; each one taken lowers the exponent. -/
def appendFraction (l : Leading) (cs : List Char) : Leading :=
  cs.foldl (fun l c => l.append c (l.exponent - 1) l.exponent) { l with full := false }

end Leading

/-- The largest power of ten that is a double. -/
def largestPower : Nat := 308

/-- The power `10 ^ n` as a double. -/
def powerOfTen (n : Nat) : Binary64 :=
  Binary64.ofDecimal false ⟨1, n⟩

/-- The double `x · 10 ^ exponent`, unless it is beyond the largest double.  A power beyond
the doubles is divided off in steps of 10³⁰⁸. -/
def scale (x : Binary64) (exponent : Int) : Option Binary64 :=
  if exponent.natAbs ≤ largestPower then
    if 0 ≤ exponent then
      let y := x.mul (powerOfTen exponent.toNat)
      if y.isFinite then some y else none
    else some (x.div (powerOfTen exponent.natAbs))
  else if x.magnitude = 0 then some x
  else if 0 ≤ exponent then none
  else scale (x.div (powerOfTen largestPower)) (exponent + largestPower)
termination_by exponent.natAbs
decreasing_by simp only [largestPower] at *; omega

/-- The value of a numeral. -/
def ofNumeral (n : Numeral) : Json :=
  let whole := Leading.appendWhole ⟨0, 0, false⟩ n.whole
  if !whole.full && n.fraction.isEmpty && n.exponent?.isNone then
    if !n.negative then int whole.digits
    else if 0 < whole.digits ∧ Int64.minValue.toInt ≤ -whole.digits then int (-whole.digits)
    else float (Binary64.ofInt whole.digits).neg
  else
    let l := whole.appendFraction n.fraction
    match scale (Binary64.ofInt l.digits) (l.exponent + n.exponent?.getD 0) with
    | some x => float (if n.negative then x.neg else x)
    | none => unreadable

end TableQuery.Json
