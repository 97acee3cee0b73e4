/-!
What a compiler reports about a place in a source file.

* `Severity`, `Diagnostic`: an error or a warning at a line and column of a file.
* `Diagnostic.text`: the line that a compiler prints for it.
-/

namespace BuildMend

/-- How serious a diagnostic is. -/
inductive Severity where
  | error
  | warning
  deriving DecidableEq, Repr

/-- The word for a severity. -/
def Severity.name : Severity → String
  | .error => "error"
  | .warning => "warning"

/-- The severity that a word names. -/
def Severity.ofName? : String → Option Severity
  | "error" => some .error
  | "warning" => some .warning
  | _ => none

/-- An error or a warning that a compiler reports. -/
structure Diagnostic where
  severity : Severity
  file : String
  line : Int
  column : Int
  code : String
  message : String
  deriving DecidableEq, Repr

namespace Diagnostic

/-- Whether the diagnostic is an error. -/
def isError (d : Diagnostic) : Bool := d.severity == .error

/-- The line that a compiler prints for a diagnostic. -/
def text (d : Diagnostic) : String :=
  s!"{d.file}({d.line},{d.column}): {d.severity.name} {d.code}: {d.message}"

end Diagnostic

end BuildMend
