import BuildMend.Assistant.Session
import BuildMend.BuildTool

/-!
The run that mends a build.

* `Mender`: the project, the build tool, the assistant and the settings of a run.
* `Mender.fixLoop`: one phase: the assistant is asked and the build repeated until it succeeds or the
  attempts of the phase are used up.
* `Mender.run`: the run: the source phase, and the solution phase once the source builds; a fault
  ends the run with the attempts made so far.

Each phase has a session of its own, and attempts are numbered on from one phase to the next.
-/

namespace BuildMend

open Number

/-- The project, the build tool, the assistant and the settings of a run. -/
structure Mender where
  project : Path
  tool : BuildTool
  assistant : AssistantProfile
  /-- Whether the assistant's words are shown. -/
  streams : Bool
  settings : FixSettings

/-- A run under way: the world and the attempts so far. -/
structure Bench where
  world : World
  attempts : List Attempt := []

/-- What changes a run under way. -/
abbrev BenchAction (α : Type) := Act Bench α

/-- A run under way with the session of its phase. -/
structure PhaseBench where
  bench : Bench
  session : Session

/-- What changes a phase under way. -/
abbrev PhaseAction (α : Type) := Act PhaseBench α

namespace Bench

/-- An action in the world of a run. -/
def inWorld {α : Type} (a : Action α) : BenchAction α :=
  a.zoom Bench.world fun b w => { b with world := w }

/-- A log record of the run. -/
def note (level : Level) (text : String) : Action Unit := .log level .fixRun text

end Bench

namespace PhaseBench

/-- An action in the world of a phase. -/
def inWorld {α : Type} (a : Action α) : PhaseAction α :=
  (Bench.inWorld a).zoom PhaseBench.bench fun p b => { p with bench := b }

/-- What the session of a phase does. -/
def inSession {α : Type} (a : SessionAction α) : PhaseAction α :=
  a.zoom (fun p => ⟨p.bench.world, p.session⟩) fun p d =>
    { bench := { p.bench with world := d.world }, session := d.session }

/-- An attempt is added to those so far. -/
def addAttempt (a : Attempt) : PhaseAction Unit :=
  modify fun p => { p with bench := { p.bench with attempts := p.bench.attempts ++ [a] } }

end PhaseBench

namespace Mender

open Bench PhaseBench

/-! ### What is logged -/

/-- The greatest number of errors that are logged. -/
def previewLimit : Nat := 5

/-- Each line is logged. -/
def noteAll : List String → Action Unit
  | [] => return
  | l :: rest => do
    note .info l
    noteAll rest

/-- The lines for the first errors and the number of the others. -/
def previewLines (errors : List Diagnostic) : List String :=
  (errors.take previewLimit).map (fun e => "  " ++ e.text) ++
    if previewLimit < errors.length then [s!"  ... and {errors.length - previewLimit} more"] else []

/-- The first errors of a build are logged. -/
def notePreview (errors : List Diagnostic) : Action Unit := noteAll (previewLines errors)

/-- What an attempt did to the errors is logged. -/
def noteProgress (phase : Phase) (progress : Progress) (before after : Build) : Action Unit := do
  match progress with
  | .none =>
    note .warning
      s!"[{phase.name}] No progress: the same {after.errorCount} error(s) remain"
  | .reduced =>
    note .info s!"[{phase.name}] Progress: {before.errorCount} -> {after.errorCount} errors"
  | _ =>
    note .info s!"[{phase.name}] Errors changed: {before.errorCount} -> {after.errorCount}"
  notePreview after.errors

/-! ### Builds -/

/-- The sources are generated anew; a failure is logged and nothing more. -/
def regenerate (m : Mender) : Action Unit := do
  note .info "Regenerating code..."
  let result ← m.tool.run .regenerate m.project
  if !result.success then
    note .warning s!"Code generation failed with {result.errorCount} error(s), continuing"

/-- The build of a phase, after its sources are generated anew where the phase does so. -/
def rebuild (m : Mender) (phase : Phase) : Action Build := do
  if phase.regenerates then m.regenerate
  m.tool.run phase.buildMode m.project

/-! ### One phase -/

/-- The verdict on an attempt: a success resolves it, whatever errors it reports. -/
def verdict (m : Mender) (before after : Build) : Progress :=
  if after.success then .resolved
  else assess m.settings.progressKey before.errors after.errors

/-- One attempt: the assistant is asked to mend the errors of a build, and the build is repeated. -/
def tryOnce (m : Mender) (phase : Phase) (offset index : Nat) (current : Build) :
    PhaseAction Build := do
  let budget := m.settings.budget phase
  PhaseBench.inWorld <| note .info <|
    s!"[{phase.name}] Attempt {index}/{budget}: " ++
      s!"asking assistant to fix {current.errorCount} error(s)"
  let response ← inSession (Session.askForFix current.errors current.output)
  let rebuilt ← PhaseBench.inWorld (m.rebuild phase)
  let progress := m.verdict current rebuilt
  addAttempt
    { number := ((offset + index : Nat) : Int)
      before := current.errors
      after := rebuilt.errors
      response := response
      phase := phase
      progress := progress }
  if rebuilt.success then
    PhaseBench.inWorld <|
      note .info s!"[{phase.name}] Build succeeded after attempt {index}"
  else PhaseBench.inWorld (noteProgress phase progress current rebuilt)
  return rebuilt

/-- Attempts until one succeeds: whether one did, and how many were used. -/
def attemptLoop (m : Mender) (phase : Phase) (offset : Nat) :
    (left : Nat) → (current : Build) → PhaseAction (Bool × Nat)
  | 0, current => do
    let budget := m.settings.budget phase
    PhaseBench.inWorld <| note .warning <|
      s!"[{phase.name}] Retry budget of {budget} exhausted, " ++
        s!"{current.errorCount} error(s) remain"
    return (false, budget)
  | left + 1, current => do
    let index := m.settings.budget phase - left
    let rebuilt ← m.tryOnce phase offset index current
    if rebuilt.success then return (true, index)
    else m.attemptLoop phase offset left rebuilt

/-- A phase that starts from a failed build, in a session of its own. -/
def fixLoop (m : Mender) (phase : Phase) (build : Build) (offset : Nat) :
    BenchAction (Bool × Nat) := fun b =>
  let session := Session.forFixes m.assistant m.streams m.project.fullText
  let body : PhaseAction (Bool × Nat) := do
    inSession Session.begin
    m.attemptLoop phase offset (m.settings.budget phase) build
  let (r, p) := Act.closing body (inSession Session.dispose) ⟨b, session⟩
  (r, p.bench)

/-! ### The run -/

/-- The outcome of a run that has come to its end. -/
def outcome (success : Bool) (used : Nat) : BenchAction FixRun := do
  return ⟨success, used, (← get).attempts⟩

/-- The solution is built, and mended if it fails. -/
def solutionPhase (m : Mender) (used : Nat) : BenchAction FixRun := do
  Bench.inWorld (note .info "Source builds, verifying full solution (including tests)...")
  let build ← Bench.inWorld (m.tool.run .solution m.project)
  if build.success then
    Bench.inWorld (note .info "Full solution build succeeded")
    outcome true used
  else
    Bench.inWorld (note .info s!"Full solution build failed with {build.errorCount} error(s)")
    Bench.inWorld (notePreview build.errors)
    let (success, more) ← m.fixLoop .solution build used
    outcome success (used + more)

/-- The phases of the run.  A source that builds at once ends it: then nothing has to be mended. -/
def phases (m : Mender) : BenchAction FixRun := do
  Bench.inWorld m.regenerate
  Bench.inWorld (note .info "Building source...")
  let build ← Bench.inWorld (m.tool.run .source m.project)
  if build.success then
    Bench.inWorld (note .info "Build succeeded, no fixes needed")
    outcome true 0
  else
    Bench.inWorld (note .info s!"Build failed with {build.errorCount} error(s)")
    Bench.inWorld (notePreview build.errors)
    let (success, used) ← m.fixLoop .source build 0
    if success then m.solutionPhase used else outcome false used

/-- The run; a fault ends it with the attempts made so far. -/
def run (m : Mender) : Action FixRun := fun w =>
  match m.phases ⟨w, []⟩ with
  | (.ok r, b) => (.ok r, b.world)
  | (.error (.fault f), b) =>
    let aborted : Action FixRun := do
      note .error s!"Fix run aborted after {b.attempts.length} attempt(s): {f.message}"
      .fault (.fixRunAborted f b.attempts)
    aborted b.world
  | (.error e, b) => (.error e, b.world)

/-- The run for a project with some settings: the assistant gets the limit of the settings. -/
def ofSettings (env? : String → Option String) (project : Path) (settings : FixSettings)
    (assistant : AssistantProfile) (streams : Bool) : Mender :=
  { project := project.resolve
    tool := { commands := usualCommands env? none, limit := settings.buildLimit }
    assistant := assistant.withLimit env? settings.assistantLimit
    streams := streams
    settings := settings }

end Mender

end BuildMend
