import BuildMend.Build
import BuildMend.Json.Value

/-!
Events: what a run does that others can see.

* `Level`, `Source`: how serious a log record is, and which part of the program wrote it.
* `ClientOptions`, `Request`: how the assistant and the web service are addressed.
* `Event`: one thing that a run does.
-/

namespace BuildMend

open Number

/-- How serious a log record is. -/
inductive Level where
  | debug
  | info
  | warning
  | error
  deriving DecidableEq, Repr

/-- The name of a level. -/
def Level.name : Level → String
  | .debug => "DEBUG"
  | .info => "INFO"
  | .warning => "WARNING"
  | .error => "ERROR"

/-- The parts of the program that write log records. -/
inductive Source where
  | diagnostics
  | fixRun
  | migrationSteps
  | migration
  | buildTool
  | commits
  | session
  | specSearch
  deriving DecidableEq, Repr

/-- The name under which a part of the program writes log records. -/
def Source.name : Source → String
  | .diagnostics => "sdk_codegen_cli.application.services.diagnostic_parser"
  | .fixRun => "sdk_codegen_cli.application.services.fix_orchestrator"
  | .migrationSteps => "sdk_codegen_cli.application.services.migration_steps"
  | .migration => "sdk_codegen_cli.application.services.migration_service"
  | .buildTool => "sdk_codegen_cli.infrastructure.build.build_runner"
  | .commits => "sdk_codegen_cli.infrastructure.github.commit_lookup"
  | .session => "sdk_codegen_cli.infrastructure.sdk.assistant_session"
  | .specSearch => "sdk_codegen_cli.infrastructure.sdk.spec_locator"

/-- How a client of the assistant is set up. -/
structure ClientOptions where
  workingDirectory : String
  allowedTools : List String
  model : String
  permissionMode : String
  cliPath : Option String
  /-- What is appended to the client's own instructions. -/
  systemPrompt : String

/-- A request to the web service. -/
structure Request where
  url : String
  parameters : List (String × Json)
  headers : List (String × String)
  /-- The seconds that the answer may take. -/
  limit : Amount

/-- One thing that a run does. -/
inductive Event where
  | log (level : Level) (source : Source) (text : String)
  /-- The build tool is started for an operation. -/
  | start (mode : BuildMode) (command : List String) (directory : String)
  /-- The process that was started last is killed. -/
  | kill
  | client (options : ClientOptions)
  | connect
  | query (prompt : String)
  | disconnect
  | get (request : Request)
  /-- The assistant's words are shown. -/
  | output (text : String)
  /-- A run that mends the build is asked for. -/
  | fixRun (project : String) (retries : Nat)

end BuildMend
