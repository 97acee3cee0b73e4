import BuildMend.CommandLine.Arguments
import BuildMend.Report
import BuildMend.Text.ControlSequence

/-!
What a call of the program does.

* `Outcome`: what is printed and how the program exits.
* `run`: a call with some arguments, in a world.
-/

namespace BuildMend.CommandLine

open Text

/-- How the program exits: with a code, or with a failure that it does not handle. -/
inductive Exit where
  | code (n : Nat)
  | failure (f : Failure)

/-- What is printed on either stream, and how the program exits. -/
structure Outcome where
  exit : Exit
  output : List String := []
  errors : List String := []

/-- The version of the program. -/
def version : String := "1.0.0"

/-- The time of a log record, which is not told. -/
def recordTime : String := "<time>"

/-- The line of a log record that is told: all of them when much is told, else none of the least
level. -/
def logLine? (verbose : Bool) : Event → Option String
  | .log level source text =>
    if verbose || level != .debug then
      some s!"{recordTime} {level.name} {source.name}: {text}"
    else none
  | _ => none

/-- The words of the assistant that are shown. -/
def outputLine? : Event → Option String
  | .output text => some text
  | _ => none

/-- Lines for the user, without the control sequences in them; log records keep theirs. -/
def plain (lines : List String) : List String := lines.map withoutSequences

/-- What an action prints by itself, before the lines of its end. -/
def withEvents (verbose : Bool) (w : World) (o : Outcome) : Outcome :=
  { o with
    output := plain (w.trace.filterMap outputLine?) ++ o.output
    errors := w.trace.filterMap (logLine? verbose) ++ o.errors }

/-- The exit code of a run that succeeded or not. -/
def exitCode (success : Bool) : Exit := .code (if success then 0 else 1)

/-- What an argument names. -/
inductive Target where
  /-- A directory, without double dots in its path. -/
  | directory (p : Path)
  | nothing
  /-- The system refuses to look for it. -/
  | tooLong
  deriving DecidableEq, Repr

/-- What an argument names: a place from the root directory or from the one in which the program is
called. -/
def Target.ofArgument (w : World) (path : String) : Target :=
  let start : Path := if Path.startsAtRoot path then [] else w.directory
  let names := Path.ofText path
  if isLongPath (tidyPath path) || w.tree.meetsLongName start names then .tooLong
  else if w.tree.leadsToDirectory start names then .directory (Path.resolve (start ++ names))
  else .nothing

/-- The outcome when an argument names no directory. -/
def noDirectory (path : String) : Outcome :=
  { exit := .code 1, errors := plain [s!"Error: Directory not found: {tidyPath path}"] }

/-- The outcome when the system refuses to look for what an argument names. -/
def refusedPath (path : String) : Outcome := { exit := .failure (.pathTooLong (tidyPath path)) }

/-- The lines about a run that mends a build: its outcome, and its attempts when much is told. -/
def fixLines (verbose : Bool) (r : FixRun) : List String :=
  Report.fixSummary r ++
    if verbose && !r.attempts.isEmpty then ["", "Attempts:"] ++ Report.attemptLog r else []

/-- The outcome of a run that mends a build. -/
def fixOutcome (verbose : Bool) : Except Failure FixRun → Outcome
  | .ok r => { exit := exitCode r.success, output := plain (fixLines verbose r) }
  | .error (.fault f) => { exit := .code 1, errors := plain [s!"❌ Error: {f.message}"] }
  | .error f => { exit := .failure f }

/-- The build of a library is mended. -/
def generate (path : String) (verbose : Bool) (values : Values) (w : World) : Outcome × World :=
  match Target.ofArgument w path with
  | .tooLong => (refusedPath path, w)
  | .nothing => (noDirectory path, w)
  | .directory project =>
    let choices : FixChoices :=
      { maxRetries := values.maxRetries
        buildLimit := values.buildLimit
        assistantLimit := values.assistantLimit }
    match FixSettings.ofChoices choices with
    | .error f => ({ exit := .code 1, errors := [f.message] }, w)
    | .ok settings =>
      let (r, w) :=
        (Mender.ofSettings w.env? project settings (.ofChoices w.env? {}) true).run w
      (withEvents verbose w (fixOutcome verbose r), w)

/-- The outcome of a migration. -/
def outcomeOfMigration (dryRun : Bool) : Except Failure MigrationOutcome → Outcome
  | .ok r => { exit := exitCode r.success, output := plain (Report.migrationSummary r dryRun) }
  | .error f => { exit := .failure f }

/-- A library is migrated. -/
def migrate (path : String) (verbose quiet dryRun : Bool) (w : World) : Outcome × World :=
  match Target.ofArgument w path with
  | .tooLong => (refusedPath path, w)
  | .nothing => (noDirectory path, w)
  | .directory project =>
    let m := Migration.ofProject w.env? project dryRun (!quiet) (.ofChoices w.env? {})
    let (r, w) := m.run w
    (withEvents verbose w (outcomeOfMigration dryRun r), w)

/-- A call of the program under a name, with some arguments. -/
def run (program : String) (arguments : List String) (w : World) : Outcome × World :=
  match Invocation.ofArguments arguments with
  | .error u => ({ exit := .code 2, errors := plain (u.lines program) }, w)
  | .ok .version => ({ exit := .code 0, output := [s!"{program}, version {version}"] }, w)
  | .ok .help => ({ exit := .code 0, output := helpLines program }, w)
  | .ok .nullInPath => ({ exit := .failure .nullInPath }, w)
  | .ok (.generate path verbose values) => generate path verbose values w
  | .ok (.migrate path verbose quiet dryRun) => migrate path verbose quiet dryRun w

end BuildMend.CommandLine
