import BuildMend.Text.Blank
import BuildMend.Text.Scan
import BuildMend.Text.Word

/-!
Edits of source texts for the new generator.

* `renameWords`: words that stand for themselves are replaced, within longer words they stay.
* `CodeEdit`: the edits of custom code, and `CodeEdit.apply` what each does to a text.
* `removeAutorestElement`: the edit of a project file.
-/

namespace BuildMend.Migration

open Text

/-! ### Words -/

/-- Where one of some words stands between boundaries; it reads the word's replacement. -/
def wordForm (names : List (String × String)) : Form (List Char) := fun before text =>
  if !isBoundary before text.head? then none
  else
    names.findSome? fun (word, replacement) => do
      let rest ← afterLiteral? word.toList text
      if isBoundary word.toList.getLast? rest.head? then
        return (replacement.toList, word.length)
      else none

/-- The text with words replaced. -/
def renameWords (names : List (String × String)) (text : List Char) : List Char :=
  replaceAll (wordForm names) text

/-- The attributes that become one. -/
def attributeNames : List (String × String) :=
  [("CodeGenClient", "CodeGenType"), ("CodeGenModel", "CodeGenType")]

/-- The field that becomes a property. -/
def pipelineNames : List (String × String) := [("_pipeline", "Pipeline")]

/-- The data of unknown members, as a field and as a parameter. -/
def rawDataNames : List (String × String) :=
  [("_serializedAdditionalRawData", "_additionalBinaryDataProperties"),
    ("serializedAdditionalRawData", "additionalBinaryDataProperties")]

/-! ### Using directives -/

/-- The directive that imports the attributes' new namespace. -/
def customizationsImport : String := "using Microsoft.TypeSpec.Generator.Customizations;"

/-- The line break at the front, if one stands there: a line feed, or a carriage return before it. -/
def lineBreak? : List Char → Option (List Char)
  | '\r' :: '\n' :: _ => some ['\r', '\n']
  | '\n' :: _ => some ['\n']
  | _ => none

/-- The directive after which the new one goes when it is there. -/
def coreUsing : String := "using Azure.Core;"

/-- Where that directive is a line of its own; it reads the line with the new directive after it, which
ends as the line does. -/
def coreForm : Form (List Char) := fun before text => do
  if !atLineStart before then none
  let rest ← afterLiteral? coreUsing.toList text
  let lineBreak ← lineBreak? rest
  return (coreUsing.toList ++ lineBreak ++ customizationsImport.toList ++ lineBreak,
    coreUsing.length + lineBreak.length)

/-- The characters of a kind at the front, at least one, and the text after them. -/
def someOf? (p : Char → Bool) (s : List Char) : Option (List Char) :=
  if (s.takeWhile p).isEmpty then none else some (s.dropWhile p)

/-- Where a line starts with a directive; it reads the line break. -/
def usingForm : Form (List Char) := fun before text => do
  if !atLineStart before then none
  let rest ← afterLiteral? "using".toList text
  let rest ← someOf? isBlank rest
  let rest ← someOf? (fun c => isWordChar c || c == '.') rest
  let rest ← afterLiteral? [';'] (rest.dropWhile isBlank)
  let line := rest.takeWhile (· != '\n')
  let after ← afterLiteral? ['\n'] (rest.drop line.length)
  let lineBreak := if line.getLast? == some '\r' then ['\r', '\n'] else ['\n']
  return (lineBreak, text.length - after.length)

/-- The text with the new directive after the last one, unless there is none. -/
def addAfterLastUsing (text : List Char) : List Char :=
  match (usingForm.occurrences text).getLast? with
  | none => text
  | some o =>
    text.take o.stop ++ customizationsImport.toList ++ o.value ++ text.drop o.stop

/-- The start of an attribute of the generator. -/
def attributeStart : List Char := "[CodeGen".toList

/-- The text with the directive for the attributes' new namespace: after the directive for the core
namespace, or else after the last one of a text that has such attributes. -/
def importCustomizations (text : List Char) : List Char :=
  if containsText customizationsImport.toList text then text
  else
    match coreForm.first? text with
    | some _ => replaceFirst coreForm text
    | none => if containsText attributeStart text then addAfterLastUsing text else text

/-- Where a line starts with the directive of the old generator's namespace, blanks and whole blank
lines around it included. -/
def autorestForm : Form (List Char) := fun before text => do
  if !atLineStart before then none
  let rest ← afterLiteral? "using".toList (text.dropWhile isBlank)
  let rest ← someOf? isBlank rest
  let rest ← afterLiteral? "Autorest.CSharp.Core".toList rest
  let rest ← afterLiteral? [';'] (rest.dropWhile isBlank)
  return ([], text.length - (rest.dropWhile isBlank).length)

/-- The text without the directive of the old generator's namespace. -/
def removeAutorestUsing (text : List Char) : List Char := replaceAll autorestForm text

/-! ### Custom code -/

/-- The edits of custom code. -/
inductive CodeEdit where
  | addNamespace
  | renameAttributes
  | renamePipeline
  | removeUsing
  | renameRawData
  deriving DecidableEq, Repr

namespace CodeEdit

/-- What an edit does to a text. -/
def apply : CodeEdit → List Char → List Char
  | .addNamespace => importCustomizations
  | .renameAttributes => renameWords attributeNames
  | .renamePipeline => renameWords pipelineNames
  | .removeUsing => removeAutorestUsing
  | .renameRawData => renameWords rawDataNames

/-- What is said when an edit changes no file. -/
def nothingFound : CodeEdit → String
  | .addNamespace => "No files needed namespace updates"
  | .renameAttributes => "No files contained CodeGenClient/CodeGenModel"
  | .renamePipeline => "No files contained _pipeline"
  | .removeUsing => "No files contained Autorest.CSharp.Core using"
  | .renameRawData => "No files contained serializedAdditionalRawData"

end CodeEdit

/-! ### Project files -/

/-- The name of the element that asks for the old generator. -/
def autorestName : List Char := "IncludeAutorestDependency".toList

/-- The element that asks for the old generator. -/
def autorestElement : List Char :=
  "<IncludeAutorestDependency>true</IncludeAutorestDependency>".toList

/-- A space or a tab. -/
def isTabOrSpace (c : Char) : Bool := c == ' ' || c == '\t'

/-- The text without a character at its front, if that stands there. -/
def dropOne (c : Char) : List Char → List Char
  | [] => []
  | d :: rest => if d == c then rest else d :: rest

/-- Where a line starts with the element, spaces around it and the line break included. -/
def elementForm : Form (List Char) := fun before text => do
  if !atLineStart before then none
  let rest ← afterLiteral? autorestElement (text.dropWhile isTabOrSpace)
  let rest := dropOne '\n' (dropOne '\r' (rest.dropWhile isTabOrSpace))
  return ([], text.length - rest.length)

/-- Where three or more line feeds stand together; it reads two. -/
def blankRunForm : Form (List Char) := fun _ text =>
  let count := (text.takeWhile (· == '\n')).length
  if 3 ≤ count then some (['\n', '\n'], count) else none

/-- A project file without the element; afterwards no two lines are blank together. -/
def removeAutorestElement (text : List Char) : List Char :=
  replaceAll blankRunForm (replaceAll elementForm text)

end BuildMend.Migration
