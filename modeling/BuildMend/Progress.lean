import BuildMend.Diagnostic.Basic

/-!
What an attempt to mend a build did to its errors.

* `ProgressKey`: by what an error is known, its message alone or all that is reported of it.
* `ErrorIdentity`: an error as it is known by a key.
* `sameErrors`: two lists hold the same errors, in whatever order and number.
* `noProgress`: the errors are the same and not fewer.
* `Progress`, `assess`: the verdict on an attempt.
-/

namespace BuildMend

/-- By what an error is known. -/
inductive ProgressKey where
  | message
  | full
  deriving DecidableEq, Repr

namespace ProgressKey

/-- The name of a key. -/
def name : ProgressKey → String
  | .message => "message"
  | .full => "full"

/-- The key with a name. -/
def ofName? : String → Option ProgressKey
  | "message" => some .message
  | "full" => some .full
  | _ => none

end ProgressKey

/-- An error as it is known by a key. -/
inductive ErrorIdentity where
  | message (message : String)
  | full (file : String) (line column : Int) (code message : String)
  deriving DecidableEq, Repr

namespace ErrorIdentity

/-- What a diagnostic is known by. -/
def ofDiagnostic : ProgressKey → Diagnostic → ErrorIdentity
  | .message, d => .message d.message
  | .full, d => .full d.file d.line d.column d.code d.message

/-- Identities in order: of two full ones the first part that differs decides. -/
def le : ErrorIdentity → ErrorIdentity → Bool
  | .message a, .message b => a ≤ b
  | .message _, .full .. => true
  | .full .., .message _ => false
  | .full f l c k m, .full f' l' c' k' m' =>
    if f ≠ f' then f ≤ f'
    else if l ≠ l' then l ≤ l'
    else if c ≠ c' then c ≤ c'
    else if k ≠ k' then k ≤ k'
    else m ≤ m'

end ErrorIdentity

/-- What the errors of a list are known by. -/
def errorIdentities (key : ProgressKey) (errors : List Diagnostic) : List ErrorIdentity :=
  errors.map (.ofDiagnostic key)

/-- The identities of a list of errors, each once and in order. -/
def errorSet (key : ProgressKey) (errors : List Diagnostic) : List ErrorIdentity :=
  ((errorIdentities key errors).eraseDups).mergeSort ErrorIdentity.le

/-- Two lists hold the same errors when each error of one is known in the other. -/
def sameErrors (key : ProgressKey) (before after : List Diagnostic) : Bool :=
  (errorIdentities key before).all ((errorIdentities key after).contains ·) &&
    (errorIdentities key after).all ((errorIdentities key before).contains ·)

/-- The errors are not fewer and still the same. -/
def noProgress (key : ProgressKey) (before after : List Diagnostic) : Bool :=
  before.length ≤ after.length && sameErrors key before after

/-- The verdict on an attempt. -/
inductive Progress where
  /-- The build succeeded. -/
  | resolved
  /-- There are fewer errors. -/
  | reduced
  /-- The errors are the same and not fewer. -/
  | none
  /-- The errors are others and not fewer. -/
  | changed
  deriving DecidableEq, Repr

/-- The name of a verdict. -/
def Progress.name : Progress → String
  | .resolved => "resolved"
  | .reduced => "reduced"
  | .none => "no-progress"
  | .changed => "changed"

/-- The verdict with a name. -/
def Progress.ofName? (s : String) : Option Progress :=
  [Progress.resolved, .reduced, .none, .changed].find? (·.name == s)

/-- The verdict on an attempt that left errors: fewer errors count before anything else. -/
def assess (key : ProgressKey) (before after : List Diagnostic) : Progress :=
  if after.length < before.length then .reduced
  else if noProgress key before after then .none
  else .changed

end BuildMend
