import BuildMend.Number.Numeral
import BuildMend.Text.Blank
import BuildMend.Text.Scan

/-!
How the assistant is set up.

* `AssistantChoices`: what a user may choose; `AssistantProfile.ofChoices` fills the gaps from the
  environment and from defaults.
* `modelName`: the name of a model without blanks around it and without its provider.
* `AssistantProfile.withLimit`: the same set-up with another limit for an answer.
-/

namespace BuildMend

open Number Text

/-- The tools for mending builds: files only, no commands. -/
def mendTools : List String := ["Read", "Edit", "Write", "Grep", "Glob"]

/-- The tools for searching specifications. -/
def searchTools : List String := ["WebFetch", "WebSearch"]

/-- What a user may choose about the assistant. -/
structure AssistantChoices where
  model : Option String := none
  searchModel : Option String := none
  cliPath : Option String := none
  permissionMode : Option String := none
  limit : Option Amount := none

/-- How the assistant is set up. -/
structure AssistantProfile where
  /-- The model that mends builds. -/
  model : String
  /-- The model that searches specifications. -/
  searchModel : String
  /-- Where the client's program is. -/
  cliPath : Option String
  permissionMode : String
  /-- The seconds that an answer may take. -/
  limit : Option Amount
  deriving DecidableEq, Repr

/-- The first value that is there and not empty. -/
def firstGiven : List (Option String) → Option String
  | [] => none
  | some s :: rest => if s.isEmpty then firstGiven rest else some s
  | none :: rest => firstGiven rest

/-- The provider whose name may stand before that of a model. -/
def provider : List Char := "anthropic/".toList

/-- The name of a model without blanks around it and, in whatever letters, without its provider. -/
def modelName (name : String) : String :=
  let trimmed := trim name.toList
  if provider.isPrefixOf (trimmed.map Char.toLower) then
    String.ofList (trimmed.drop provider.length)
  else String.ofList trimmed

namespace AssistantProfile

/-- The model that mends builds, if none is chosen. -/
def defaultModel : String := "claude-opus-4-20250514"

/-- The model that searches specifications, if none is chosen. -/
def defaultSearchModel : String := "claude-sonnet-4-20250514"

/-- The set-up in which an environment and defaults fill the gaps of some choices.  An empty choice is
a gap. -/
def ofChoices (env? : String → Option String) (c : AssistantChoices) : AssistantProfile :=
  { model := modelName
      ((firstGiven [c.model, env? "CODEGEN_ASSISTANT_MODEL"]).getD defaultModel)
    searchModel := modelName
      ((firstGiven [c.searchModel, env? "CODEGEN_SPEC_SEARCH_MODEL"]).getD defaultSearchModel)
    cliPath := (firstGiven [c.cliPath]).or (env? "CLAUDE_CODE_CLI_PATH")
    permissionMode :=
      (firstGiven [c.permissionMode, env? "CLAUDE_CODE_PERMISSION_MODE"]).getD "acceptEdits"
    limit := c.limit }

/-- The set-up made anew from its own values, with another limit for an answer. -/
def withLimit (env? : String → Option String) (c : AssistantProfile) (limit : Option Amount) :
    AssistantProfile :=
  ofChoices env? ⟨some c.model, some c.searchModel, c.cliPath, some c.permissionMode, limit⟩

end AssistantProfile

end BuildMend
