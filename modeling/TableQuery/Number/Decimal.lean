import TableQuery.Number.Binary64

/-!
# Decimal numerals

`Decimal` is a natural number times a power of ten.  `Decimal.read?` reads a numeral with an
optional fraction and exponent, `Binary64.ofDecimal` rounds it to the nearest double, and
`readInt64?` and `readCount?` read integers of a fixed range.
-/

namespace TableQuery

/-- The number `digits · 10 ^ exponent`. -/
structure Decimal where
  digits : Nat
  exponent : Int
  deriving DecidableEq

/-- The number that a list of decimal digits spells. -/
def ofDigits (cs : List Char) : Nat :=
  Nat.ofDigitChars 10 cs 0

/-- The decimal digits of a number. -/
def toDigits (n : Nat) : List Char :=
  Nat.toDigits 10 n

theorem ofDigits_toDigits (n : Nat) :
  ofDigits (toDigits n) = n
  := Nat.ofDigitChars_ten_toDigits

/-- An optional sign at the start of a numeral: whether it is a minus, and the rest. -/
def readSign : List Char → Bool × List Char
  | '-' :: rest => (true, rest)
  | '+' :: rest => (false, rest)
  | cs => (false, cs)

/-- The number spelled by a list of one or more digits. -/
def readDigits? (cs : List Char) : Option Nat :=
  if !cs.isEmpty && cs.all Char.isDigit then some (ofDigits cs) else none

/-- An integer: an optional sign and digits. -/
def readInt? (cs : List Char) : Option Int :=
  let (negative, rest) := readSign cs
  (readDigits? rest).map fun n => if negative then -n else n

/-- An integer as a 64-bit one with a sign, if it fits. -/
def fitInt64? (i : Int) : Option Int64 :=
  if Int64.minValue.toInt ≤ i ∧ i ≤ Int64.maxValue.toInt then some (Int64.ofInt i) else none

/-- An integer as a 64-bit one without a sign, if it fits. -/
def fitWord? (i : Int) : Option UInt64 :=
  if 0 ≤ i ∧ i < UInt64.size then some (UInt64.ofNat i.toNat) else none

/-- An integer that fits 64 bits with a sign. -/
def readInt64? (cs : List Char) : Option Int64 :=
  (readInt? cs).bind fitInt64?

/-- An integer that fits 64 bits without a sign.  A plus sign may stand before it, a minus
sign may not. -/
def readCount? : List Char → Option UInt64
  | '-' :: _ => none
  | cs => (readInt? cs).bind fitWord?

namespace Decimal

/-- The size at which an exponent is complete: the digits after it are ignored. -/
def exponentLimit : Nat := 0x10000

/-- The exponent that a list of digits spells. -/
def exponentOfDigits (cs : List Char) : Nat :=
  cs.foldl (fun n c => if n < exponentLimit then Nat.ofDigitChars 10 [c] n else n) 0

/-- The exponent part of a numeral: nothing, or a letter e, an optional sign and one or more
digits. -/
def readExponent? : List Char → Option Int
  | [] => some 0
  | c :: rest =>
    let (negative, digits) := readSign rest
    if (c = 'e' ∨ c = 'E') ∧ !digits.isEmpty ∧ digits.all Char.isDigit then
      some (if negative then -exponentOfDigits digits else exponentOfDigits digits)
    else none

/-- The fraction at the start of `cs`, and what follows it. -/
def readFraction : List Char → List Char × List Char
  | '.' :: rest => rest.span Char.isDigit
  | cs => ([], cs)

/-- A numeral: an optional sign, digits with an optional point among them or at either end,
and an optional exponent. -/
def read? (cs : List Char) : Option (Bool × Decimal) :=
  let (negative, rest) := readSign cs
  let (whole, rest) := rest.span Char.isDigit
  let (fraction, rest) := readFraction rest
  if (whole ++ fraction).isEmpty then none
  else
    (readExponent? rest).map fun e =>
      (negative, ⟨ofDigits (whole ++ fraction), e - fraction.length⟩)

/-- The numerator of `d` as a ratio of natural numbers. -/
def num (d : Decimal) : Nat := d.digits * Nat.pow 10 d.exponent.toNat

/-- The denominator of `d` as a ratio of natural numbers. -/
def den (d : Decimal) : Nat := Nat.pow 10 (-d.exponent).toNat

end Decimal

namespace Binary64

/-- The double nearest to a decimal number.  Exponents so large or so small that the result
is an infinity or a zero whatever the digits are not expanded. -/
def ofDecimal (negative : Bool) (d : Decimal) : Binary64 :=
  if d.digits = 0 ∨ d.exponent + (d.digits.log2 / 3 + 1 : Nat) < -330 then
    ofMagnitude negative 0
  else if 310 < d.exponent then ofMagnitude negative infinite
  else ofRatio negative d.num d.den

/-- The double nearest to the number that a numeral spells. -/
def read? (cs : List Char) : Option Binary64 :=
  (Decimal.read? cs).map fun (negative, d) => ofDecimal negative d

end Binary64

end TableQuery
