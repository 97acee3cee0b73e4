import BuildMend.CommitService
import BuildMend.Migration.CodeEdit
import BuildMend.Migration.TspLocation
import BuildMend.SpecSearch

/-!
The steps that move a library onto the new generator.

* `Step`: the steps in their order, with their titles.
* `StepOutcome`: how a step ended: a failure ends the migration, a warning does not.
* `Library`: a library that is moved, and whether files are written at all.
* `Library.runStep`: what a step does.

Source code lies in the directory `src` if there is one.  Code below a directory named `Generated` is
not touched.  A step reads, edits and saves one file after the other, in the order of their names.
-/

namespace BuildMend.Migration

open Text

/-! ### Steps and their results -/

/-- The steps of a migration. -/
inductive Step where
  | emitterPath
  | commit
  | projectFiles
  | code (edit : CodeEdit)
  deriving DecidableEq, Repr

namespace Step

/-- The steps in their order. -/
def all : List Step :=
  [.emitterPath, .commit, .projectFiles, .code .addNamespace, .code .renameAttributes,
    .code .renamePipeline, .code .removeUsing, .code .renameRawData]

/-- What a step is called. -/
def title : Step → String
  | .emitterPath => "Updating tsp-location.yaml"
  | .commit => "Updating commit SHA to latest"
  | .projectFiles => "Updating .csproj files"
  | .code .addNamespace => "Updating CodeGen attributes namespace"
  | .code .renameAttributes => "Replacing CodeGenClient/CodeGenModel with CodeGenType"
  | .code .renamePipeline => "Replacing _pipeline with Pipeline"
  | .code .removeUsing => "Removing Autorest.CSharp.Core using statements"
  | .code .renameRawData =>
    "Replacing serializedAdditionalRawData with additionalBinaryDataProperties"

/-- What is said of a step that is done, after changing some files. -/
def completed (filesChanged : Nat) : Step → String
  | .emitterPath => "Updated tsp-location.yaml with new emitterPackageJsonPath"
  | .commit => "Updated commit SHA to latest"
  | .projectFiles => "Removed IncludeAutorestDependency from .csproj"
  | .code .addNamespace =>
    "Updated CodeGen attributes to Microsoft.TypeSpec.Generator.Customizations " ++
      s!"({filesChanged} files)"
  | .code .renameAttributes =>
    s!"Replaced CodeGenClient/CodeGenModel with CodeGenType ({filesChanged} files)"
  | .code .renamePipeline => s!"Replaced _pipeline with Pipeline ({filesChanged} files)"
  | .code .removeUsing =>
    s!"Removed Autorest.CSharp.Core using statements ({filesChanged} files)"
  | .code .renameRawData =>
    "Replaced serializedAdditionalRawData with additionalBinaryDataProperties " ++
      s!"({filesChanged} files)"

end Step

/-- How a step ended. -/
structure StepOutcome where
  success : Bool
  warning : Option String := none
  error : Option String := none
  filesChanged : Nat := 0
  deriving DecidableEq, Repr

namespace StepOutcome

/-- A step that cannot be done. -/
def failed (error : String) : StepOutcome := { success := false, error := some error }

/-- A step that is done with a warning. -/
def warned (warning : String) (filesChanged : Nat := 0) : StepOutcome :=
  { success := true, warning := some warning, filesChanged }

/-- A step that is done and changed files. -/
def changed (filesChanged : Nat) : StepOutcome := { success := true, filesChanged }

end StepOutcome

/-! ### The library -/

/-- A library that is moved onto the new generator. -/
structure Library where
  project : Path
  /-- Whether changes are only reported. -/
  dryRun : Bool
  commits : CommitService
  search : SpecSearch

namespace Library

/-- A log record of the steps. -/
def note (level : Level) (text : String) : Action Unit := .log level .migrationSteps text

/-- The file that says where the specification is. -/
def locationFile (l : Library) : Path := l.project ++ [TspLocation.fileName]

/-- Where the source code is, if the library keeps it apart. -/
def sources (l : Library) : Path := l.project ++ ["src"]

/-- The directory of the source code. -/
def codeDirectory (l : Library) (t : FileTree) : Path :=
  if t.isDirectory l.sources then l.sources else l.project

/-- The name of the directories whose code is generated. -/
def generatedName : String := "Generated"

/-- Whether a place below the source root is not generated: no directory on the way is. -/
def isCustom (root place : Path) : Bool :=
  !((place.drop root.length).dropLast.contains generatedName)

/-- The files of custom code, in order. -/
def customFiles (l : Library) (t : FileTree) : List Path :=
  let root := l.codeDirectory t
  (t.below root ".cs").filter (isCustom root)

/-- The project files, in order. -/
def projectFiles (l : Library) (t : FileTree) : List Path := t.below (l.codeDirectory t) ".csproj"

/-- A file gets a new text, unless changes are only reported. -/
def save (l : Library) (place : Path) (text : List Char) : Action Unit := do
  let name := place.fullText
  if l.dryRun then note .debug s!"[dry-run] Would update {name}"
  else
    .writeFile place (String.ofList text)
    note .debug s!"Updated {name}"

/-- A file gets a new text given by code points, unless changes are only reported.  If they are no text
the file is left empty. -/
def savePoints (l : Library) (place : Path) (points : List CodePoint) : Action Unit := do
  match CodePoint.toChars? points with
  | .ok text => l.save place text
  | .error h =>
    if l.dryRun then l.save place []
    else
      .writeFile place ""
      .fail (.unencodable h)

/-- The text of a file. -/
def load (place : Path) : Action (List Char) := do
  return (← Action.readFile place).toList

/-! ### Editing files -/

/-- Each file gets its edited text if that differs; the number of such files. -/
def editFiles (l : Library) (edit : List Char → List Char) : List Path → Action Nat
  | [] => return 0
  | place :: rest => do
    let text ← load place
    let updated := edit text
    if updated != text then
      l.save place updated
      return 1 + (← l.editFiles edit rest)
    else l.editFiles edit rest

/-- The result of editing files: a warning if none has changed. -/
def editResult (changed : Nat) (nothingFound : String) : StepOutcome :=
  if changed = 0 then .warned nothingFound else .changed changed

/-- An edit of the custom code. -/
def editCode (l : Library) (edit : CodeEdit) : Action StepOutcome := do
  .lookFor l.sources
  let files := l.customFiles (← get).tree
  return editResult (← l.editFiles edit.apply files) edit.nothingFound

/-- The edit of a project file; one that does not name the element stays as it is. -/
def editProjectText (text : List Char) : List Char :=
  if containsText autorestName text then removeAutorestElement text else text

/-- The edit of the project files, of which there must be one. -/
def editProjects (l : Library) : Action StepOutcome := do
  .lookFor l.sources
  match l.projectFiles (← get).tree with
  | [] => return .failed "No .csproj files found"
  | files =>
    return editResult (← l.editFiles editProjectText files)
      "No IncludeAutorestDependency found in .csproj files"

/-! ### The specification's place -/

/-- The result when the file that says where the specification is does not exist. -/
def noLocationFile : StepOutcome := .failed s!"{TspLocation.fileName} not found"

/-- Whether that file exists. -/
def hasLocationFile (l : Library) : Action Bool := do
  .lookFor l.locationFile
  return (← get).tree.isFile l.locationFile

/-- The emitter path is set to that of the new generator. -/
def updateEmitterPath (l : Library) : Action StepOutcome := do
  if !(← l.hasLocationFile) then return noLocationFile
  let text ← load l.locationFile
  if TspLocation.hasEmitterPath text then
    note .info s!"{TspLocation.fileName} already has the new emitter path"
    return .warned s!"{TspLocation.fileName} already migrated"
  l.save l.locationFile (TspLocation.withEmitterPath text)
  return .changed 1

/-- The branch on which specifications live. -/
def usualBranch : String := "main"

/-- The first parts of a commit's identifier. -/
def commitStart : Json → Except Failure String
  | .string s => .ok (CodePoint.shown (s.take 8))
  | .array elements => .ok (Json.array (elements.take 8)).display
  | .object _ => .error .namedParts
  | v => .error (.noParts v.kind)

/-- What an update of the commit works on. -/
structure CommitUpdate where
  text : List Char
  owner : String
  repo : String
  directory : String

/-- The code points of the text that is updated. -/
def CommitUpdate.points (u : CommitUpdate) : List CodePoint := u.text.map .char

/-- The specification has moved: the assistant is asked where to.  Without an answer the newest commit
of the branch is taken and the directory stays. -/
def relocate (l : Library) (u : CommitUpdate) : Action StepOutcome := do
  note .warning
    s!"Spec path '{u.directory}' not found on {usualBranch}, searching for its new location"
  if l.dryRun then
    return .warned "Spec path not found (dry-run, skipping assistant lookup)"
  let found ← l.search.locate u.owner u.repo u.directory usualBranch
  if !found.path.isEmptyValue && !found.commit.isEmptyValue then
    let points := TspLocation.withDirectory found.path.text u.points
    l.savePoints l.locationFile (TspLocation.withCommit found.commit.text points)
    let start ← Act.ofExcept (commitStart found.commit)
    note .info s!"Found new spec path {found.path.display} at {start}..."
    return .changed 1
  let newest ← l.commits.latest u.owner u.repo (some usualBranch)
  if newest.isEmptyValue then
    return .warned "Spec path not found and could not determine new location"
  l.savePoints l.locationFile (TspLocation.withCommit newest.text u.points)
  let start ← Act.ofExcept (commitStart newest)
  return .warned
    (s!"Could not find new spec path. Updated SHA to latest main ({start}...). " ++
      "Manual path update required.") 1

/-- The newest commit of the directory, or else of the branch. -/
def newestCommit (l : Library) (u : CommitUpdate) : Action Json := do
  let ofDirectory ←
    if u.directory.isEmpty then pure Json.null
    else l.commits.latestForPath u.owner u.repo u.directory (some usualBranch)
  if ofDirectory.isEmptyValue then
    note .info "Could not find path-specific commits, using latest main commit"
    l.commits.latest u.owner u.repo (some usualBranch)
  else return ofDirectory

/-- What the lookups of an update come to: a result, or the newest commit. -/
def lookUp (l : Library) (u : CommitUpdate) : Action (StepOutcome ⊕ Json) := do
  let there ←
    if u.directory.isEmpty then pure true
    else l.commits.hasPath u.owner u.repo u.directory (some usualBranch)
  if there then return .inr (← l.newestCommit u)
  else return .inl (← l.relocate u)

/-- The newest commit takes the place of the one that is given, if it is another. -/
def saveCommit (l : Library) (u : CommitUpdate) (newest : Json) : Action StepOutcome := do
  if newest.isEmptyValue then return .warned "Could not determine latest commit SHA"
  let given := (TspLocation.commitValue? u.text).map fun c => String.ofList (trim c)
  match given, newest with
  | some g, .string s =>
    if CodePoint.ofString g == s then return .warned "Commit SHA already up to date"
  | _, _ => pure ()
  l.savePoints l.locationFile (TspLocation.withCommit newest.text u.points)
  let start ← Act.ofExcept (commitStart newest)
  note .info s!"Updated commit SHA to {start}..."
  return .changed 1

/-- The update of the commit for a repository; failures of lookups are warnings. -/
def updateCommitOf (l : Library) (u : CommitUpdate) : Action StepOutcome := do
  let place := if u.directory.isEmpty then "/" else u.directory
  note .info s!"Looking up latest commit for {u.owner}/{u.repo} path: {place}"
  match ← Act.attempt (l.lookUp u) with
  | .ok (.inl result) => return result
  | .ok (.inr newest) => l.saveCommit u newest
  | .error f =>
    if f.isLookupFailure then return .warned s!"Could not fetch latest commit: {f.message}"
    else .fail f

/-- The commit is set to the newest one of the specification. -/
def updateCommit (l : Library) : Action StepOutcome := do
  if !(← l.hasLocationFile) then return noLocationFile
  let text ← load l.locationFile
  match TspLocation.repositoryValue? text with
  | none =>
    return .warned s!"No repo specified in {TspLocation.fileName}, skipping SHA update"
  | some repository =>
    let directory := String.ofList ((TspLocation.directoryValue? text).getD [])
    match TspLocation.ownerAndName repository with
    | .error f => .fail (.badUrl f)
    | .ok none => return .warned s!"Could not parse repo: {String.ofList repository}"
    | .ok (some (owner, repo)) => l.updateCommitOf ⟨text, owner, repo, directory⟩

/-! ### Any step -/

/-- What a step does. -/
def runStep (l : Library) : Step → Action StepOutcome
  | .emitterPath => l.updateEmitterPath
  | .commit => l.updateCommit
  | .projectFiles => l.editProjects
  | .code edit => l.editCode edit

end Library

end BuildMend.Migration
