import TableQuery.Text.CharClass

/-!
# Blank characters

`Text.isBlankChar` is the property White_Space of Unicode.  `Text.trim` removes blank
characters from both ends of a text, and `Text.isBlank` says that nothing is left.
-/

namespace TableQuery

/-- The characters of the Unicode property White_Space. -/
def CharClass.whiteSpace : CharClass where
  ranges :=
    [(0x09, 0x0D), (0x20, 0x20), (0x85, 0x85), (0xA0, 0xA0), (0x1680, 0x1680),
     (0x2000, 0x200A), (0x2028, 0x2029), (0x202F, 0x202F), (0x205F, 0x205F),
     (0x3000, 0x3000)]

namespace Text

/-- Whether `c` is Unicode white space. -/
def isBlankChar (c : Char) : Bool :=
  CharClass.whiteSpace.contains c

/-- The characters from the first one that is not blank on. -/
def trimLeft (cs : List Char) : List Char :=
  cs.dropWhile isBlankChar

/-- The characters up to the last one that is not blank. -/
def trimRight (cs : List Char) : List Char :=
  (cs.reverse.dropWhile isBlankChar).reverse

/-- The characters without the blank ones at both ends. -/
def trim (cs : List Char) : List Char :=
  trimRight (trimLeft cs)

/-- Whether `s` holds blank characters only. -/
def isBlank (s : String) : Bool :=
  s.toList.all isBlankChar

end Text

end TableQuery
