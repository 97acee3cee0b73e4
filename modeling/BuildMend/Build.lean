import BuildMend.Diagnostic.Reader

/-!
Builds: what the build tool is asked for and what it answers.

* `BuildMode`: the three operations of the build tool.
* `Build`: the outcome of one operation; it succeeded when the tool said so.
* `Build.isContradictory`: a success that reports errors.
-/

namespace BuildMend

/-- The operations of the build tool. -/
inductive BuildMode where
  /-- Generate the sources anew. -/
  | regenerate
  /-- Build the source tree. -/
  | source
  /-- Build everything, the tests included. -/
  | solution
  deriving DecidableEq, Repr

namespace BuildMode

/-- All operations. -/
def all : List BuildMode := [.regenerate, .source, .solution]

/-- The name of an operation. -/
def name : BuildMode → String
  | .regenerate => "regenerate-sources"
  | .source => "build-source-tree"
  | .solution => "build-full-solution"

/-- The label of an operation in a message about the operations themselves. -/
def label : BuildMode → String
  | .regenerate => "REGENERATE"
  | .source => "BUILD_SOURCE"
  | .solution => "BUILD_SOLUTION"

/-- The operation with a name. -/
def ofName? (s : String) : Option BuildMode := all.find? (·.name == s)

/-- Whether the operation runs in the source directory when there is one. -/
def worksInSources : BuildMode → Bool
  | .solution => false
  | _ => true

end BuildMode

/-- The outcome of an operation of the build tool. -/
structure Build where
  success : Bool
  errors : List Diagnostic
  warnings : List Diagnostic
  output : String
  exitCode : Option Int
  mode : Option BuildMode
  deriving DecidableEq, Repr

namespace Build

/-- The number of errors reported. -/
def errorCount (b : Build) : Nat := b.errors.length

/-- A success that reports errors. -/
def isContradictory (b : Build) : Bool := b.success && !b.errors.isEmpty

/-- The outcome of an operation that ended with an exit code after some output. -/
def ofOutput (mode : BuildMode) (exitCode : Int) (output : String) : Build :=
  let found := Findings.ofOutput output
  { success := exitCode == 0
    errors := found.errors
    warnings := found.warnings
    output := output
    exitCode := some exitCode
    mode := some mode }

end Build

end BuildMend
