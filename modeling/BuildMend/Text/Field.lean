import BuildMend.Text.Blank
import BuildMend.Text.Scan

/-!
Values that follow a key.

* `lineValue?`: the value that follows a key up to the end of its line.
* `wordValue?`: the value that follows a key up to the next blank.
* `keyedLine`, `keyedWord`: the forms of a key with such a value.

Blanks after the key are passed over, line feeds too, so a value may stand on a later line than its
key.
-/

namespace BuildMend.Text

/-- The value up to the end of the line where text next stands, and the number of characters taken.
When nothing but blanks is left, the value is the last of them that is no line feed. -/
def lineValue? (text : List Char) : Option (List Char × Nat) :=
  let gap := text.takeWhile isBlank
  match text.dropWhile isBlank with
  | [] =>
    let kept := dropWhileEnd (· == '\n') gap
    kept.getLast?.map fun c => ([c], kept.length)
  | rest =>
    let value := rest.takeWhile (· != '\n')
    some (value, gap.length + value.length)

/-- The value up to the next blank, and the number of characters taken. -/
def wordValue? (text : List Char) : Option (List Char × Nat) :=
  let gap := text.takeWhile isBlank
  match (text.dropWhile isBlank).takeWhile (!isBlank ·) with
  | [] => none
  | value => some (value, gap.length + value.length)

/-- A key, anywhere in a text, with the value up to the end of a line. -/
def keyedLine (key : String) : Form (List Char) := fun _ text => do
  let rest ← afterLiteral? key.toList text
  let (value, length) ← lineValue? rest
  return (value, key.length + length)

/-- A key, anywhere in a text, with the value up to a blank. -/
def keyedWord (key : String) : Form (List Char) := fun _ text => do
  let rest ← afterLiteral? key.toList text
  let (value, length) ← wordValue? rest
  return (value, key.length + length)

end BuildMend.Text
