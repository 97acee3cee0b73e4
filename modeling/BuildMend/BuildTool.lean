import BuildMend.Text.LineReader
import BuildMend.World.Basic

/-!
The build tool: it runs in a directory, prints lines and exits with a code.

* `BuildTool`: the command of each operation and the limit for a build.
* `buildDirectory`: where an operation runs.
* `BuildTool.run`: an operation, with what the tool printed and reported.

A process that does not end by itself is killed before the run goes on.
-/

namespace BuildMend

open Number Text

/-- The command of each operation and the seconds that a build may take. -/
structure BuildTool where
  commands : List (BuildMode × List String)
  limit : Option Amount := none

/-! ### Commands and directories -/

/-- The usual commands: those of the given program, or of the one that the environment names. -/
def usualCommands (env? : String → Option String) (program : Option String) :
    List (BuildMode × List String) :=
  let program := (firstOrVariable program).getD "dotnet"
  [(.regenerate, [program, "build", "/t:GenerateCode"]), (.source, [program, "build"]),
    (.solution, [program, "build"])]
where
  firstOrVariable : Option String → Option String
    | some p => if p.isEmpty then env? "DOTNET_EXECUTABLE" else some p
    | none => env? "DOTNET_EXECUTABLE"

/-- The directory of an operation: that of the sources, when the operation uses it and it exists, or
else that of the project. -/
def buildDirectory (t : FileTree) (project : Path) (mode : BuildMode) : Path :=
  let sources := project ++ ["src"]
  if mode.worksInSources && t.isDirectory sources then sources else project

/-- The directory of an operation, which asks for that of the sources only when the operation uses
it. -/
def directoryFor (project : Path) (mode : BuildMode) : Action Path := do
  if mode.worksInSources then .lookFor (project ++ ["src"])
  return buildDirectory (← get).tree project mode

/-- The command of an operation. -/
def BuildTool.command? (tool : BuildTool) (mode : BuildMode) : Option (List String) :=
  (tool.commands.find? fun (m, _) => m == mode).map (·.2)

/-! ### Operations -/

namespace BuildTool

/-- A log record of the build tool. -/
def note (level : Level) (text : String) : Action Unit := .log level .buildTool text

/-- Lines of output are logged. -/
def noteLines : List String → Action Unit
  | [] => return
  | l :: rest => do
    note .debug l
    noteLines rest

/-- What the next process of the script does. -/
def nextProcess : Action ProcessScript := do
  let w ← get
  match w.processes with
  | [] => return .quiet
  | p :: rest =>
    set { w with processes := rest }
    return p

/-- A build that takes too long is killed. -/
def timeOut {α : Type} (mode : BuildMode) (limit : Amount) : Action α := do
  note .error s!"[{mode.name}] Build timed out after {limit.text}s"
  .record .kill
  .fault (.buildTimeout mode limit)

/-- A started process, up to its exit code and its lines. -/
def attend (tool : BuildTool) (mode : BuildMode) (pieces : List Utf8.Octets) (ending : ProcessEnd)
    (leavings : Leavings) : Action (Int × List String) := do
  let reader := LineReader.ofPieces pieces
  match ending with
  | .exits code =>
    let lines := reader.all.map lineText
    noteLines lines
    .leave leavings
    return (code, lines)
  | .hangs =>
    noteLines (reader.complete.map lineText)
    match tool.limit with
    | some limit => timeOut mode limit
    | none => .fail .stalled
  | .cancelled =>
    noteLines (reader.complete.map lineText)
    .record .kill
    .fail .cancelled

/-- What is told when a command does not start. -/
def startFailure (reason : String) : List String → Failure
  | [] => .emptyCommand
  | program :: _ => .fault (.buildToolStart program reason)

/-- A process with a command in a directory, up to its exit code and its lines.  A limit of zero or
less is over before anything is read, and one that is too large cannot be set. -/
def execute (tool : BuildTool) (mode : BuildMode) (command : List String) (directory : String) :
    Action (Int × List String) := do
  .record (.start mode command directory)
  match ← nextProcess with
  | .refused reason => .fail (startFailure reason command)
  | .raises m => .fail (.mishap m)
  | .runs pieces ending leavings =>
    match tool.limit with
    | some limit =>
      if limit.isNonPositive then timeOut mode limit
      else if limit.isTooLarge then
        .record .kill
        .fail .numberTooLarge
      else attend tool mode pieces ending leavings
    | none => attend tool mode pieces ending leavings

/-- Reports whose position cannot be read are logged. -/
def noteUnreadable : List String → Action Unit
  | [] => return
  | r :: rest => do
    .log .debug .diagnostics s!"Skipping diagnostic with unreadable position: {quoted r}"
    noteUnreadable rest

/-- An operation for a project. -/
def run (tool : BuildTool) (mode : BuildMode) (project : Path) : Action Build := do
  let place ← directoryFor project mode
  let directory := place.fullText
  match tool.command? mode with
  | none => .fail (.noCommand mode)
  | some command =>
    let line := " ".intercalate command
    note .debug s!"[{mode.name}] Running {line} in {directory}"
    let (code, lines) ← execute tool mode command directory
    let output := outputText lines
    noteUnreadable (Findings.ofOutput output).unreadable
    let build := Build.ofOutput mode code output
    if build.isContradictory then
      note .warning
        s!"[{mode.name}] Build exited with code 0 but reported {build.errorCount} error(s)"
    return build

end BuildTool

end BuildMend
