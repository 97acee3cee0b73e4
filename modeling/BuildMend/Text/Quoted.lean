import BuildMend.Text.PrintTable

/-!
Quoted texts, the form in which a message shows a text exactly.

* `quoted`: a text between quotes, with the quote and the backslash escaped, the control characters
  of a line as `\n`, `\r`, `\t`, and every other invisible character by its code point.
* `isVisible`: whether a character stands for itself between quotes.
-/

namespace BuildMend.Text

/-- The visible characters: those of ASCII and those of every other script. -/
def isVisible (c : Char) : Bool :=
  if c.toNat < 128 then 32 ≤ c.toNat && c.toNat < 127 else printTable.contains c

/-- The lower hexadecimal digits of a number, at least `width` of them. -/
def hexDigits (width n : Nat) : List Char :=
  let ds := Nat.toDigits 16 n
  List.replicate (width - ds.length) '0' ++ ds

/-- The escape of an invisible character: two, four or eight hexadecimal digits, the fewest that
hold the code point. -/
def codeEscape (c : Char) : List Char :=
  let n := c.toNat
  if n < 0x100 then '\\' :: 'x' :: hexDigits 2 n
  else if n < 0x10000 then '\\' :: 'u' :: hexDigits 4 n
  else '\\' :: 'U' :: hexDigits 8 n

/-- How one character is written between quotes of the kind `q`. -/
def quotedChar (q c : Char) : List Char :=
  if c == q || c == '\\' then ['\\', c]
  else if c == '\n' then ['\\', 'n']
  else if c == '\r' then ['\\', 'r']
  else if c == '\t' then ['\\', 't']
  else if isVisible c then [c]
  else codeEscape c

/-- The quote for a text: the single one, unless the text holds single quotes and no double ones. -/
def quoteFor (s : List Char) : Char :=
  if s.contains '\'' && !s.contains '"' then '"' else '\''

/-- A text between quotes. -/
def quoted (s : String) : String :=
  let cs := s.toList
  let q := quoteFor cs
  String.ofList (q :: cs.flatMap (quotedChar q) ++ [q])

end BuildMend.Text
