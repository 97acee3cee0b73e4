import BuildMend.Number.Numeral
import BuildMend.World.FileTree

/-!
Scripts: what the surroundings of a run will do when they are asked.

* `Mishap`: what the surroundings can raise, by the kind of its cause.
* `ProcessScript`: how a started process goes: it may not start, print for a while and exit, never
  end, or be under way when the run is cancelled.
* `Turn`, `ClientScript`: how an assistant answers the prompts of one connection.
* `Reply`: what a web service answers to one request.
-/

namespace BuildMend

open Number Text

/-! ### Mishaps -/

/-- The failures of the assistant's client. -/
inductive ClientMishap where
  | general
  | connection
  | notFound
  | process
  deriving DecidableEq, Repr

/-- The failures of a web request on its way. -/
inductive TransportMishap where
  | connection
  | readTimeout
  | protocol
  deriving DecidableEq, Repr

/-- The kinds of what the surroundings can raise.  This leaves out a time limit that runs out within the
assistant's client and that the client raises itself: a session would report it as a turn that takes
too long. -/
inductive MishapKind where
  | client (kind : ClientMishap)
  | transport (kind : TransportMishap)
  | invalidUrl
  | runtime
  | value
  deriving DecidableEq, Repr

/-- Something that the surroundings raise. -/
structure Mishap where
  kind : MishapKind
  text : String
  deriving DecidableEq, Repr

namespace Mishap

/-- Whether the assistant's client failed. -/
def isClient (m : Mishap) : Bool :=
  match m.kind with
  | .client _ => true
  | _ => false

/-- Whether a commit lookup passes over the mishap: a failed request or an invalid value. -/
def isLookupFailure (m : Mishap) : Bool :=
  match m.kind with
  | .transport _ | .value => true
  | _ => false

end Mishap

/-! ### What is left behind -/

/-- The directories and files that something leaves behind. -/
structure Leavings where
  directories : List Path := []
  files : List (Path × Utf8.Octets) := []

/-- The tree with what has been left behind in it. -/
def FileTree.leave (t : FileTree) (l : Leavings) : FileTree :=
  let t := l.directories.foldl FileTree.addDirectory t
  l.files.foldl (fun t (p, content) => t.write p content) t

/-! ### Processes -/

/-- How a process that has printed its output goes on. -/
inductive ProcessEnd where
  | exits (code : Int)
  /-- It never ends. -/
  | hangs
  /-- It does not end before the run is cancelled. -/
  | cancelled

/-- What happens when a process is started. -/
inductive ProcessScript where
  /-- The system refuses, for a reason. -/
  | refused (reason : String)
  | raises (m : Mishap)
  /-- It prints pieces of output, goes on as said, and leaves something when it exits. -/
  | runs (pieces : List Utf8.Octets) (ending : ProcessEnd) (leavings : Leavings)

/-- A process that prints nothing and exits with success. -/
def ProcessScript.quiet : ProcessScript := .runs [] (.exits 0) {}

/-! ### The assistant -/

/-- A part of what the assistant says. -/
inductive Block where
  | text (s : String)
  | tool (name : String)
  | thinking (s : String)

/-- A message of the assistant's client. -/
inductive Message where
  | assistant (blocks : List Block)
  /-- The end of a turn. -/
  | result (isError : Bool) (kind : String) (text : Option String) (cost : Option Amount)
  | other

/-- How a turn goes on after its messages. -/
inductive TurnEnd where
  /-- It leaves something, and may then fail. -/
  | ends (leavings : Leavings) (failure : Option Mishap)
  | hangs
  | cancelled

/-- How the assistant answers one prompt. -/
structure Turn where
  /-- What the prompt itself raises. -/
  refusal : Option Mishap := none
  messages : List Message := []
  ending : TurnEnd := .ends {} none

/-- How one connection to the assistant goes. -/
structure ClientScript where
  turns : List Turn := []
  connectFailure : Option Mishap := none
  disconnectFailure : Option Mishap := none

/-! ### The web service -/

/-- What the web service answers to one request. -/
inductive Reply where
  | answer (status : Int) (body : Utf8.Octets)
  | raises (m : Mishap)

/-- The answer to a request for which the script has none. -/
def Reply.missing : Reply := .answer 404 (Utf8.encodeString "null")

end BuildMend
