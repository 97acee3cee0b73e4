/-!
Blank characters, and the text left when they are trimmed.

* `isBlank`: the spaces, separators and line breaks of every script, with the four information
  separators of ASCII; the zero-width marks are not blank.
* `trimStart`, `trimEnd`, `trim`: a text without its leading blanks, its trailing blanks, both.
-/

namespace BuildMend.Text

/-- The blank characters: tab to carriage return, the information separators, the space, the next
line and no-break spaces, and the separators of the general punctuation and CJK blocks. -/
def isBlank (c : Char) : Bool :=
  let n := c.toNat
  (9 ≤ n && n ≤ 13) || (28 ≤ n && n ≤ 32) || n == 0x85 || n == 0xA0 || n == 0x1680 ||
    (0x2000 ≤ n && n ≤ 0x200A) || n == 0x2028 || n == 0x2029 || n == 0x202F || n == 0x205F ||
    n == 0x3000

/-- The text without its trailing units of a kind. -/
def dropWhileEnd {α : Type} (p : α → Bool) (s : List α) : List α :=
  (s.reverse.dropWhile p).reverse

/-- The text without its leading blanks. -/
def trimStart (s : List Char) : List Char := s.dropWhile isBlank

/-- The text without its trailing blanks. -/
def trimEnd (s : List Char) : List Char := dropWhileEnd isBlank s

/-- The text without the blanks at its two ends. -/
def trim (s : List Char) : List Char := trimEnd (trimStart s)

/-- `trim` on strings. -/
def trimString (s : String) : String := String.ofList (trim s.toList)

end BuildMend.Text
