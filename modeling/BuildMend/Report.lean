import BuildMend.Migration.Run

/-!
The lines that tell a user how a run ended.

* `fixSummary`: the outcome of a run that mends a build; `attemptLog`: its attempts, a line each.
* `migrationSummary`: the outcome of a migration.
-/

namespace BuildMend.Report

/-- The line around a title. -/
def rule : String := String.ofList (List.replicate 40 '=')

/-- A title between lines. -/
def banner (title : String) : List String := ["", rule, title, rule]

/-- The word for yes or no. -/
def yesNo (b : Bool) : String := if b then "True" else "False"

/-- The errors that a failed run leaves; a run without attempts tells none. -/
def remainingLines (r : FixRun) : List String :=
  if r.success || r.attempts.isEmpty then []
  else
    [s!"Remaining errors: {r.remaining.length}", "", "Remaining error details:"] ++
      r.remaining.map fun e => "  " ++ e.text

/-- The outcome of a run that mends a build. -/
def fixSummary (r : FixRun) : List String :=
  banner "Summary" ++ [s!"Success: {yesNo r.success}", s!"Attempts used: {r.attemptsUsed}"] ++
    remainingLines r

/-- An attempt: its number, phase, numbers of errors and verdict. -/
def attemptLine (a : Attempt) : String :=
  s!"  #{a.number} [{a.phase.name}] {a.before.length} -> {a.after.length} errors " ++
    s!"({a.progress.name})"

/-- The attempts of a run. -/
def attemptLog (r : FixRun) : List String := r.attempts.map attemptLine

/-- Marked items under a heading, or nothing if there are none. -/
def marked (heading mark : String) (items : List String) : List String :=
  if items.isEmpty then [] else ["", heading] ++ items.map fun i => "  " ++ mark ++ " " ++ i

/-- The error of a migration that failed with one. -/
def errorLines (r : MigrationOutcome) : List String :=
  if r.success then []
  else
    match firstGiven [r.error] with
    | some e => ["", s!"Error: {e}"]
    | none => []

/-- The outcome of a migration. -/
def migrationSummary (r : MigrationOutcome) (dryRun : Bool := false) : List String :=
  banner "Migration Summary" ++
    [s!"Success: {yesNo r.success}", s!"Steps completed: {r.completedSteps.length}"] ++
    marked "Completed steps:" "✓" r.completedSteps ++
    marked "Warnings:" "⚠" r.warnings ++
    errorLines r ++
    if dryRun then ["", "This was a dry run. No changes were made."] else []

end BuildMend.Report
