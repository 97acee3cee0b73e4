import BuildMend.FixRun
import BuildMend.Json.Reader
import BuildMend.Text.Encoding
import BuildMend.Text.Url
import BuildMend.World.Script

/-!
Failures: how a part of a run can end without a result.

* `SessionState`: where a session stands in its life.
* `Fault`: the failures that the program itself reports.
* `Failure`: those, what the surroundings raise, and what an input makes impossible.
* `Fault.message`, `Failure.message`: their wording.
* `Failure.isLookupFailure`: the failures that a commit lookup passes over.
-/

namespace BuildMend

open Number Text

/-- Where a session stands in its life. -/
inductive SessionState where
  | uninitialized
  | initialized
  | disposed
  deriving DecidableEq, Repr

/-- The name of a state. -/
def SessionState.name : SessionState → String
  | .uninitialized => "uninitialized"
  | .initialized => "initialized"
  | .disposed => "disposed"

/-- The failures that the program itself reports. -/
inductive Fault where
  /-- The build tool does not start. -/
  | buildToolStart (command reason : String)
  /-- A build takes too long. -/
  | buildTimeout (mode : BuildMode) (limit : Amount)
  /-- The assistant ends a turn with an error. -/
  | assistantReported (text : String)
  /-- The assistant's client fails in a turn. -/
  | assistantFailed (m : Mishap)
  /-- The assistant's client does not connect. -/
  | assistantUnreachable (m : Mishap)
  /-- A turn takes too long. -/
  | assistantTimeout (limit : Amount)
  /-- A session is initialized a second time. -/
  | cannotInitialize (state : SessionState)
  /-- A session is used before or after its time. -/
  | notInitialized (state : SessionState)
  /-- A run that mends a build is cut short, after some attempts. -/
  | fixRunAborted (cause : Fault) (attempts : List Attempt)
  deriving Repr

/-- The wording of a fault. -/
def Fault.message : Fault → String
  | .buildToolStart command reason => s!"Could not start '{command}': {reason}"
  | .buildTimeout mode limit => s!"{mode.name} did not finish within {limit.text}s"
  | .assistantReported text => s!"Assistant reported an error: {text}"
  | .assistantFailed m => s!"Claude Code CLI error: {m.text}"
  | .assistantUnreachable m => s!"Claude Code CLI error: {m.text}"
  | .assistantTimeout limit => s!"Assistant did not finish within {limit.text}s"
  | .cannotInitialize state => s!"Cannot initialize a session that is {state.name}"
  | .notInitialized state =>
    s!"Session is {state.name}; call initialize() before sending requests"
  | .fixRunAborted cause _ => cause.message

/-- How a part of a run can end without a result. -/
inductive Failure where
  | fault (f : Fault)
  | mishap (m : Mishap)
  /-- A file or an answer is no text. -/
  | undecodable (e : Encoding.DecodeError)
  /-- A file should get what no text can hold. -/
  | unencodable (h : CodePoint.LoneHalves)
  /-- A directory is read as a file. -/
  | isDirectory (path : String)
  /-- A path is too long to be looked for. -/
  | pathTooLong (path : String)
  /-- A path holds a null character. -/
  | nullInPath
  /-- An answer is not in the data format. -/
  | badJson (f : Json.Fault)
  /-- A value of some kind, where an object is needed. -/
  | noMembers (kind : String)
  /-- A value of some kind, of which no first part can be taken. -/
  | noParts (kind : String)
  /-- An object, whose parts have names and no order. -/
  | namedParts
  /-- A whole number is beyond all finite binary numbers. -/
  | numberTooLarge
  /-- A web address is malformed. -/
  | badUrl (f : Url.Fault)
  /-- The build tool has no command for an operation. -/
  | noCommand (mode : BuildMode)
  /-- A command without words does not start, so no program can be named. -/
  | emptyCommand
  /-- The run is cancelled. -/
  | cancelled
  /-- The run waits for something that never comes. -/
  | stalled

namespace Failure

/-- The wording of a failure. -/
def message : Failure → String
  | .fault f => f.message
  | .mishap m => m.text
  | .undecodable e => e.message
  | .unencodable h => h.message
  | .isDirectory path => s!"[Errno 21] Is a directory: {quoted path}"
  | .pathTooLong path => s!"[Errno 36] File name too long: {quoted path}"
  | .nullInPath => "embedded null byte"
  | .badJson f => f.message
  | .noMembers kind => s!"'{kind}' object has no attribute 'get'"
  | .noParts kind => s!"'{kind}' object is not subscriptable"
  | .namedParts => "unhashable type: 'slice'"
  | .numberTooLarge => "int too large to convert to float"
  | .badUrl f => f.message
  | .noCommand mode => s!"<BuildMode.{mode.label}: '{mode.name}'>"
  | .emptyCommand => "list index out of range"
  | .cancelled => ""
  | .stalled => ""

/-- The failures that a commit lookup passes over: a failed request or an invalid value. -/
def isLookupFailure : Failure → Bool
  | .mishap m => m.isLookupFailure
  | .badJson f => f.isInvalidValue
  | .undecodable _ | .unencodable _ | .badUrl _ | .nullInPath => true
  | _ => false

/-- The failures after which a run goes on no more: it is cancelled, or waits for ever. -/
def isInterruption : Failure → Bool
  | .cancelled | .stalled => true
  | _ => false

end Failure

end BuildMend
