import BuildMend.Build
import BuildMend.Number.Numeral
import BuildMend.Progress

/-!
Runs that mend a build: their phases, settings, attempts and outcome.

* `Phase`: the source tree is mended first, then the whole solution.
* `FixSettings`: how often each phase may try and how long a build or an answer may take; they are
  in range by construction, and `FixSettings.ofChoices` says which choice is out of range.
* `Attempt`, `FixRun`: what was tried, and how the run ended.
-/

namespace BuildMend

open Number

/-- The phases of a run. -/
inductive Phase where
  | source
  | solution
  deriving DecidableEq, Repr

namespace Phase

/-- The name of a phase. -/
def name : Phase → String
  | .source => "source"
  | .solution => "solution"

/-- The phase with a name. -/
def ofName? : String → Option Phase
  | "source" => some .source
  | "solution" => some .solution
  | _ => none

/-- The build that a phase has to bring to success. -/
def buildMode : Phase → BuildMode
  | .source => .source
  | .solution => .solution

/-- Whether the sources are generated anew after each attempt: the errors of a solution lie in code
that is not generated. -/
def regenerates : Phase → Bool
  | .source => true
  | .solution => false

end Phase

/-! ### Settings -/

/-- The choices from which settings are made. -/
structure FixChoices where
  maxRetries : Int := 5
  solutionMaxRetries : Option Int := none
  buildLimit : Option Amount := none
  assistantLimit : Option Amount := none
  progressKey : ProgressKey := .message

/-- The choice that is out of range. -/
inductive SettingsFault where
  | maxRetries
  | solutionMaxRetries
  | buildLimit
  | assistantLimit
  deriving DecidableEq, Repr

/-- The wording of a choice out of range. -/
def SettingsFault.message : SettingsFault → String
  | .maxRetries => "max_retries must be at least 1"
  | .solutionMaxRetries => "solution_max_retries must be at least 1"
  | .buildLimit => "build_timeout_seconds must be positive"
  | .assistantLimit => "assistant_timeout_seconds must be positive"

/-- The settings of a run. -/
structure FixSettings where
  /-- The attempts of a phase. -/
  maxRetries : Nat
  /-- The attempts of the solution phase, when they are not those of any phase. -/
  solutionMaxRetries : Option Nat
  /-- The seconds that a build may take. -/
  buildLimit : Option Amount
  /-- The seconds that an answer of the assistant may take. -/
  assistantLimit : Option Amount
  /-- By what errors are known. -/
  progressKey : ProgressKey
  maxRetries_pos : 1 ≤ maxRetries := by decide
  solutionMaxRetries_pos : ∀ n ∈ solutionMaxRetries, 1 ≤ n := by simp

namespace FixSettings

/-- A limit in seconds is out of range when it is zero or less. -/
def isBadLimit (limit : Option Amount) : Bool := limit.any Amount.isNonPositive

/-- The settings with the limits and the key of some choices. -/
def withRetries (c : FixChoices) (n : Nat) (h : 1 ≤ n) (m : Option Nat) (hm : ∀ k ∈ m, 1 ≤ k) :
    Except SettingsFault FixSettings :=
  if isBadLimit c.buildLimit then .error .buildLimit
  else if isBadLimit c.assistantLimit then .error .assistantLimit
  else .ok ⟨n, m, c.buildLimit, c.assistantLimit, c.progressKey, h, hm⟩

/-- The settings of choices that are in range, or the first choice that is not. -/
def ofChoices (c : FixChoices) : Except SettingsFault FixSettings :=
  if h : 1 ≤ c.maxRetries then
    have h : 1 ≤ c.maxRetries.toNat := by omega
    match c.solutionMaxRetries with
    | none => withRetries c c.maxRetries.toNat h none (by simp)
    | some m =>
      if hm : 1 ≤ m then
        withRetries c c.maxRetries.toNat h (some m.toNat) (by
          intro k hk
          simp only [Option.mem_def, Option.some.injEq] at hk
          omega)
      else .error .solutionMaxRetries
  else .error .maxRetries

/-- The usual settings, with a number of attempts. -/
def ofRetries (n : Nat) (h : 1 ≤ n := by decide) : FixSettings :=
  ⟨n, none, none, none, .message, h, by simp⟩

/-- The attempts that a phase may make. -/
def budget (s : FixSettings) : Phase → Nat
  | .source => s.maxRetries
  | .solution => s.solutionMaxRetries.getD s.maxRetries

end FixSettings

/-! ### Attempts and outcome -/

/-- One request for a fix and the build that followed. -/
structure Attempt where
  number : Int
  before : List Diagnostic
  after : List Diagnostic
  response : String
  phase : Phase
  progress : Progress
  deriving DecidableEq, Repr

/-- How a run ended. -/
structure FixRun where
  success : Bool
  attemptsUsed : Int
  attempts : List Attempt
  deriving DecidableEq, Repr

/-- The errors that the last attempt left. -/
def FixRun.remaining (r : FixRun) : List Diagnostic :=
  (r.attempts.getLast?.map (·.after)).getD []

end BuildMend
