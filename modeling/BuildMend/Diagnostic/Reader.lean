import BuildMend.Diagnostic.Basic
import BuildMend.Number.Numeral
import BuildMend.Text.Field

/-!
Reading diagnostics out of the output of a build.

* `Report`: a diagnostic as it stands in a text, with its numerals unread.
* `Report.form`: where a report stands: at the start of a line, the shortest file name after which a
  position, a severity, a code and a message follow.
* `Diagnostic.ofReport?`: the diagnostic of a report whose position can be read.
* `Findings.ofOutput`: the errors and warnings of an output in their order, and the reports whose
  position has too many digits.
-/

namespace BuildMend

open Text Number

/-- A diagnostic as it stands in a text. -/
structure Report where
  file : List Char
  line : List Char
  column : List Char
  severity : Severity
  code : List Char
  message : List Char
  /-- The whole text of the report. -/
  source : List Char

namespace Report

/-- The capital letters of ASCII. -/
def isCapital (c : Char) : Bool := 'A' ≤ c && c ≤ 'Z'

/-- The characters of a kind at the front, at least one, and the text after them. -/
def run? (p : Char → Bool) (s : List Char) : Option (List Char × List Char) :=
  match s.takeWhile p with
  | [] => none
  | found => some (found, s.dropWhile p)

/-- The severity named at the front, and the text after the name. -/
def severity? (s : List Char) : Option (Severity × List Char) :=
  match afterLiteral? "error".toList s with
  | some rest => some (.error, rest)
  | none => (afterLiteral? "warning".toList s).map (.warning, ·)

/-- The text from the opening bracket of a position on: the position, the severity, the code and the
message, with the number of characters they take.  The file name and the source are left empty. -/
def tail? (s : List Char) : Option (Report × Nat) := do
  let rest ← afterLiteral? ['('] s
  let (line, rest) ← run? isAsciiDigit rest
  let rest ← afterLiteral? [','] rest
  let (column, rest) ← run? isAsciiDigit rest
  let rest ← afterLiteral? [')', ':'] rest
  let (severity, rest) ← severity? (rest.dropWhile isBlank)
  let (_, rest) ← run? isBlank rest
  let (letters, rest) ← run? isCapital rest
  let (digits, rest) ← run? isAsciiDigit rest
  let rest ← afterLiteral? [':'] rest
  let (message, length) ← lineValue? rest
  return (⟨[], line, column, severity, letters ++ digits, message, []⟩,
    s.length - rest.length + length)

/-- The report whose file name starts with `name` reversed, and the number of characters that it
takes after `name`: the file name grows, within its line, until the rest of a report follows. -/
def grow? (name : List Char) : List Char → Option (Report × Nat)
  | [] => none
  | c :: rest =>
    match tail? (c :: rest) with
    | some (report, length) => some ({ report with file := name.reverse }, length)
    | none =>
      if c == '\n' then none
      else (grow? (c :: name) rest).map fun (report, length) => (report, length + 1)

/-- Where a report stands: at the start of a line, with a file name of at least one character. -/
def form : Form Report := fun before text =>
  match text with
  | [] => none
  | c :: rest =>
    if !atLineStart before || c == '\n' then none
    else
      (grow? [c] rest).map fun (report, length) =>
        ({ report with source := text.take (length + 1) }, length + 1)

end Report

/-- The diagnostic of a report, unless a number of its position has too many digits. -/
def Diagnostic.ofReport? (r : Report) : Option Diagnostic :=
  if digitLimit < r.line.length || digitLimit < r.column.length then none
  else
    some
      { severity := r.severity
        file := String.ofList (trim r.file)
        line := ofAsciiDigits r.line
        column := ofAsciiDigits r.column
        code := String.ofList r.code
        message := String.ofList (trim r.message) }

/-- What an output holds. -/
structure Findings where
  errors : List Diagnostic
  warnings : List Diagnostic
  /-- The reports whose position cannot be read. -/
  unreadable : List String

namespace Findings

/-- The reports of an output in their order. -/
def reports (output : String) : List Report :=
  (Report.form.occurrences output.toList).map (·.value)

/-- The diagnostics of an output in their order. -/
def diagnostics (output : String) : List Diagnostic :=
  (reports output).filterMap Diagnostic.ofReport?

/-- The errors, the warnings and the unreadable reports of an output, each in their order. -/
def ofOutput (output : String) : Findings :=
  let found := diagnostics output
  { errors := found.filter Diagnostic.isError
    warnings := found.filter (!Diagnostic.isError ·)
    unreadable := ((reports output).filter fun r => (Diagnostic.ofReport? r).isNone).map
      fun r => String.ofList r.source }

end Findings

end BuildMend
