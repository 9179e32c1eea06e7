import TableQuery.Number.Shortest

/-!
# Decimal notation

Two written forms of a double.  `Binary64.plain` is positional whatever the exponent, keeps
a whole number exact and marks it with `.0`; it is the form of a cell.  `Binary64.scientific`
uses an exponent outside the range from 10⁻⁵ to 10¹⁶; it is the form of a JSON number.
-/

namespace TableQuery

/-- The digits of a decimal number with a negative exponent, the point `places` from their
right end and at least one digit before it. -/
def withPoint (digits : List Char) (places : Nat) : List Char :=
  let padded := List.replicate (places + 1 - digits.length) '0' ++ digits
  padded.take (padded.length - places) ++ '.' :: padded.drop (padded.length - places)

/-- Positional notation with at least one place after the point. -/
def Decimal.positional (d : Decimal) : List Char :=
  if 0 ≤ d.exponent then
    toDigits d.digits ++ List.replicate d.exponent.toNat '0' ++ ['.', '0']
  else withPoint (toDigits d.digits) (-d.exponent).toNat

/-- Scientific notation: one digit before the point, the exponent always with its sign. -/
def Decimal.scientific (d : Decimal) : List Char :=
  let digits := toDigits d.digits
  let e := d.exponent + digits.length - 1
  let mantissa :=
    match digits with
    | [] => []
    | [c] => [c]
    | c :: rest => c :: '.' :: rest
  mantissa ++ ['e', if e < 0 then '-' else '+'] ++ toDigits e.natAbs

namespace Binary64

/-- The sign of a double as it is written. -/
def signText (x : Binary64) : List Char :=
  if x.negative then ['-'] else []

/-- A double as the text of a cell: a whole number in full, any other by its shortest
digits, and the values that are no numbers by their names. -/
def plain (x : Binary64) : String :=
  if x.isNaN then "NaN"
  else if !x.isFinite then String.ofList (x.signText ++ ['i', 'n', 'f'])
  else if x.isWhole then String.ofList (x.signText ++ toDigits x.integerPart ++ ['.', '0'])
  else String.ofList (x.signText ++ (shortest .up x.magnitude).positional)

/-- A finite double as a JSON number: shortest digits, positional from 10⁻⁵ up to 10¹⁶. -/
def scientific (x : Binary64) : String :=
  let d := shortest .even x.magnitude
  let leading := d.exponent + (toDigits d.digits).length - 1
  String.ofList <| x.signText ++
    if -5 ≤ leading ∧ leading < 16 then d.positional else d.scientific

end Binary64

end TableQuery
