import BuildMend.Text.WordTable

/-!
Word characters and the boundaries of words.

* `isWordChar`: letters and numerals of every script, and the underscore.
* `isBoundary`: the place between a character and the next is a boundary when exactly one of the two
  is a word character; the ends of a text count as characters outside words.
-/

namespace BuildMend.Text

/-- Letters and numerals of every script, and the underscore. -/
def isWordChar (c : Char) : Bool :=
  c.isAlphanum || c == '_' || (128 ≤ c.toNat && wordTable.contains c)

/-- Whether a neighbouring character, if there is one, is a word character. -/
def isWordNeighbour (c : Option Char) : Bool := c.any isWordChar

/-- A word starts or ends between two neighbours when exactly one of them is a word character. -/
def isBoundary (before after : Option Char) : Bool :=
  isWordNeighbour before != isWordNeighbour after

end BuildMend.Text
