import BuildMend.FixLoop
import BuildMend.Migration.Steps

/-!
The migration of a library: the steps in their order, and then the run that mends its build.

* `MigrationOutcome`: the outcome of a migration.
* `Migration.run`: the migration; whatever fails in it is told in the outcome, and only a
  cancellation ends it without one.
-/

namespace BuildMend

open Migration

/-- The outcome of a migration. -/
structure MigrationOutcome where
  success : Bool
  completedSteps : List String := []
  warnings : List String := []
  error : Option String := none
  fixRun : Option FixRun := none

/-- A library to be migrated, with the assistant that mends its build. -/
structure Migration where
  library : Library
  assistant : AssistantProfile
  /-- Whether the assistant's words are shown. -/
  streams : Bool

/-- A migration under way: the world and the outcome so far. -/
structure MigrationBench where
  world : World
  result : MigrationOutcome := { success := false }

/-- What changes a migration under way. -/
abbrev MigrationAction (α : Type) := Act MigrationBench α

namespace Migration

/-- The attempts of each phase when the build of a migrated library is mended. -/
def maxRetries : Nat := 5

/-- What every migrated library should be looked at for. -/
def typeNote : String :=
  "CodeGenType attributes may need manual updates if type names changed"

/-- An action in the world of a migration. -/
def inWorld {α : Type} (a : Action α) : MigrationAction α :=
  a.zoom MigrationBench.world fun b w => { b with world := w }

/-- A log record of the migration. -/
def note (level : Level) (text : String) : MigrationAction Unit :=
  inWorld (.log level .migration text)

/-- The outcome so far changes. -/
def change (f : MigrationOutcome → MigrationOutcome) : MigrationAction Unit :=
  modify fun b => { b with result := f b.result }

/-- Something is done. -/
def addCompleted (text : String) : MigrationAction Unit :=
  change fun r => { r with completedSteps := r.completedSteps ++ [text] }

/-- Something should be looked at. -/
def addWarning (text : String) : MigrationAction Unit :=
  change fun r => { r with warnings := r.warnings ++ [text] }

/-- One step, the `index`-th; whether the migration goes on. -/
def step (m : Migration) (index : Nat) (s : Step) : MigrationAction Bool := do
  note .info s!"Step {index}: {s.title}..."
  let result ← inWorld (m.library.runStep s)
  if result.success then
    addCompleted (s.completed result.filesChanged)
    match firstGiven [result.warning] with
    | some warning =>
      note .warning warning
      addWarning warning
    | none => pure ()
    return true
  else
    let error := (firstGiven [result.error]).getD s!"{s.title} failed"
    change ({ · with error := some error })
    note .error s!"Step {index} failed: {error}"
    return false

/-- Steps until one fails, the first of them the `index`-th; whether none does. -/
def steps (m : Migration) : (index : Nat) → List Step → MigrationAction Bool
  | _, [] => return true
  | index, s :: rest => do
    if ← m.step index s then m.steps (index + 1) rest else return false

/-- The run that mends the build of the library. -/
def mend (m : Migration) : Action FixRun := do
  let w ← get
  let project := m.library.project
  .record (.fixRun project.fullText maxRetries)
  (Mender.ofSettings w.env? project (.ofRetries maxRetries) m.assistant m.streams).run

/-- The build is mended, unless changes are only reported; whether it succeeds in the end. -/
def fixBuild (m : Migration) : MigrationAction Bool := do
  if m.library.dryRun then
    note .info "Skipping code generation in dry-run mode"
    addCompleted "Code generation skipped (dry-run)"
    return true
  note .info "Running code generation and fixing build errors..."
  let run ← inWorld m.mend
  change ({ · with fixRun := some run })
  if run.success then
    addCompleted s!"Code generation succeeded after {run.attemptsUsed} attempt(s)"
    return true
  addWarning <|
    s!"Code generation completed with {run.remaining.length} remaining errors " ++
      "- manual fixes may be needed"
  return false

/-- All steps and then the build. -/
def parts (m : Migration) : MigrationAction Unit := do
  if ← m.steps 1 Step.all then
    let fixed ← m.fixBuild
    note .warning s!"Note: {typeNote}"
    addWarning typeNote
    change ({ · with success := fixed })

/-- The migration up to its outcome. -/
def runOnBench (m : Migration) : MigrationAction Unit := do
  note .info s!"Migrating library at: {m.library.project.fullText}"
  match ← Act.attempt m.parts with
  | .ok _ => return
  | .error f =>
    if f.isInterruption then .fail f
    note .error s!"Migration failed: {f.message}"
    change ({ · with error := some f.message })

/-- The migration. -/
def run (m : Migration) : Action MigrationOutcome := fun w =>
  let (r, b) := m.runOnBench ⟨w, { success := false }⟩
  (r.map fun _ => b.result, b.world)

/-- The migration of the library in a directory, with the usual lookups. -/
def ofProject (env? : String → Option String) (project : Path)
    (dryRun streams : Bool) (assistant : AssistantProfile) : Migration :=
  { library :=
      { project := project.resolve
        dryRun := dryRun
        commits := .ofChoices env? none none
        search := ⟨project.resolve.fullText, .ofChoices env? {}⟩ }
    assistant := assistant
    streams := streams }

end Migration

end BuildMend
