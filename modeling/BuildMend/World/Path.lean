/-!
Paths and their texts.

* `Path`: the names from a directory down to a place.
* `Path.ofText`: the names that a text with slashes writes; empty names and single dots are dropped.
* `Path.resolve`: a path without double dots, each of which takes the name before it away.
* `Path.fullText`: the text of a path from the root directory.
* `Path.hasNull`: a path at which the system looks for nothing.
* `isLongName`, `isLongPath`: what is too long for the system.
* `tidyPath`: a text with slashes, with one slash between names; it keeps a slash at its front, and
  two when exactly two stand there.
-/

namespace BuildMend

/-- The names from a directory down to a place; two dots name the directory above. -/
abbrev Path := List String

namespace Path

/-- The names between slashes. -/
def names (text : String) : List String :=
  (text.toList.splitOn '/').map String.ofList

/-- The names that a text writes. -/
def ofText (text : String) : Path := (names text).filter fun n => n != "" && n != "."

/-- The path without double dots, after the reversed names `above`. -/
def resolveOnto : (above : Path) → Path → Path
  | above, [] => above.reverse
  | above, n :: rest => if n == ".." then resolveOnto above.tail rest else resolveOnto (n :: above) rest

/-- The path without double dots. -/
def resolve (p : Path) : Path := resolveOnto [] p

/-- The names with a slash between them. -/
def text (p : Path) : String := "/".intercalate p

/-- The text of a path from the root directory. -/
def fullText (p : Path) : String := "/" ++ p.text

/-- Whether a text names a place from the root directory. -/
def startsAtRoot (text : String) : Bool := text.toList.head? == some '/'

/-- Whether one of the names holds a null character. -/
def hasNull (p : Path) : Bool := p.any fun n => n.toList.contains '\x00'

end Path

/-! ### Long names -/

/-- The greatest number of octets in a name. -/
def nameLimit : Nat := 255

/-- The greatest number of octets in the text of a path. -/
def pathLimit : Nat := 4095

/-- Whether a name is too long for the system. -/
def isLongName (name : String) : Bool := nameLimit < name.utf8ByteSize

/-- Whether the text of a path is too long for the system. -/
def isLongPath (text : String) : Bool := pathLimit < text.utf8ByteSize

/-! ### Tidy texts -/

/-- The number of slashes that a text with slashes keeps at its front. -/
def leadingSlashes (text : String) : Nat :=
  match (text.toList.takeWhile (· == '/')).length with
  | 0 => 0
  | 2 => 2
  | _ => 1

/-- A text with slashes in its tidy form; nothing at all is a single dot. -/
def tidyPath (text : String) : String :=
  let front := String.ofList (List.replicate (leadingSlashes text) '/')
  let tidy := front ++ (Path.ofText text).text
  if tidy.isEmpty then "." else tidy

end BuildMend
