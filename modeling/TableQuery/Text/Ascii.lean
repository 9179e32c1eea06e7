/-!
# ASCII case

Words with a fixed spelling, such as keywords, are recognised whatever the case of their
ASCII letters; other letters are left as they are.
-/

namespace TableQuery.Text

/-- The characters with the ASCII capitals made small. -/
def asciiLower (cs : List Char) : List Char :=
  cs.map Char.toLower

/-- Whether `cs` spells the lower-case word `word`, the case left open. -/
def spells (word : String) (cs : List Char) : Bool :=
  asciiLower cs = word.toList

end TableQuery.Text
