import BuildMend.Text.Field
import BuildMend.Text.Url

/-!
The file that says where a library's specification is: keys with values, a line each.

* `withEmitterPath`, `withCommit`, `withDirectory`: the text with another value of a key; a commit and
  a directory may be code points that are no text, and `withCommit_map_char` and
  `withDirectory_map_char` say that this makes no difference to those that are.
* `repositoryValue?`, `directoryValue?`, `commitValue?`: the values of keys.
* `ownerAndName`: the owner and the name of a repository, from its address or from the two names with
  a slash between them.

A key counts wherever it stands; the first place counts, but for the emitter path every place.
-/

namespace BuildMend.TspLocation

open Text

/-- The name of the file. -/
def fileName : String := "tsp-location.yaml"

/-- Where the new generator's packages are listed. -/
def emitterPath : String := "eng/azure-typespec-http-client-csharp-emitter-package.json"

/-- The entry for the new generator's packages. -/
def emitterEntry : String := "emitterPackageJsonPath: " ++ emitterPath

/-! ### Entries -/

/-- The units of a string. -/
def units {α : Type} [CharLike α] (s : String) : List α := s.toList.map CharLike.ofChar

/-- A key with a value. -/
def entry {α : Type} [CharLike α] (key : String) (value : List α) : List α :=
  units (key ++ " ") ++ value

/-- The text with an entry on a line of its own at the end. -/
def appendEntry {α : Type} [CharLike α] (text entry : List α) : List α :=
  dropWhileEnd (fun u => isBlank (CharLike.look u)) text ++ units "\n" ++ entry ++ units "\n"

/-- Where the emitter path is given. -/
def emitterForm : Form (List Char) := keyedLine "emitterPackageJsonPath:"

/-- Where a commit is given. -/
def commitForm : Form (List Char) := keyedWord "commit:"

/-- Where a repository is given. -/
def repositoryForm : Form (List Char) := keyedLine "repo:"

/-- Where a directory is given. -/
def directoryForm : Form (List Char) := keyedLine "directory:"

/-- Whether the new emitter path is already there. -/
def hasEmitterPath (text : List Char) : Bool := containsText emitterPath.toList text

/-- The text with the new emitter path, at the end if none was given. -/
def withEmitterPath (text : List Char) : List Char :=
  match emitterForm.first? text with
  | some _ => replaceAll (emitterForm.map fun _ => emitterEntry.toList) text
  | none => appendEntry text emitterEntry.toList

/-- The text with a commit, at the end if none was given. -/
def withCommit {α : Type} [CharLike α] (commit text : List α) : List α :=
  match commitForm.first? (text.map CharLike.look) with
  | some _ => spliceFirst commitForm (entry "commit:" commit) text
  | none => appendEntry text (entry "commit:" commit)

/-- The text with a directory in place of the first one given. -/
def withDirectory {α : Type} [CharLike α] (directory text : List α) : List α :=
  spliceFirst directoryForm (entry "directory:" directory) text

theorem look_map_char (text : List Char) :
    (text.map CodePoint.char).map CharLike.look = text.map CharLike.look := by
  rw [List.map_map]; rfl

theorem units_map_char (s : String) : (units s : List Char).map CodePoint.char = units s := by
  rw [units, units, List.map_map]; rfl

theorem entry_map_char (key : String) (value : List Char) :
    (entry key value).map CodePoint.char = entry key (value.map CodePoint.char) := by
  rw [entry, entry, List.map_append, units_map_char]

theorem spliceFirst_map_char {β : Type} (form : Form β) (new text : List Char) :
    (spliceFirst form new text).map CodePoint.char =
      spliceFirst form (new.map CodePoint.char) (text.map CodePoint.char) := by
  unfold spliceFirst
  rw [look_map_char]
  cases form.first? (text.map CharLike.look) with
  | none => rfl
  | some o => simp

theorem appendEntry_map_char (text entry : List Char) :
    (appendEntry text entry).map CodePoint.char =
      appendEntry (text.map CodePoint.char) (entry.map CodePoint.char) := by
  have h (s : List Char) : (s.map CodePoint.char).dropWhile (fun u => isBlank (CharLike.look u)) =
      (s.dropWhile fun u => isBlank (CharLike.look u)).map CodePoint.char := by
    rw [List.dropWhile_map]; rfl
  simp only [appendEntry, dropWhileEnd, List.map_append, units_map_char, ← List.map_reverse, h]

/-- A commit is set in the code points of a text as in the text itself. -/
theorem withCommit_map_char (commit text : List Char) :
    (withCommit commit text).map CodePoint.char =
      withCommit (commit.map CodePoint.char) (text.map CodePoint.char) := by
  unfold withCommit
  rw [look_map_char]
  cases commitForm.first? (text.map CharLike.look) with
  | none => simp only [appendEntry_map_char, entry_map_char]
  | some o => simp only [spliceFirst_map_char, entry_map_char]

/-- A directory is set in the code points of a text as in the text itself. -/
theorem withDirectory_map_char (directory text : List Char) :
    (withDirectory directory text).map CodePoint.char =
      withDirectory (directory.map CodePoint.char) (text.map CodePoint.char) := by
  rw [withDirectory, withDirectory, spliceFirst_map_char, entry_map_char]

/-- The repository that is given. -/
def repositoryValue? (text : List Char) : Option (List Char) :=
  (repositoryForm.first? text).map (trim ·.value)

/-- The directory that is given. -/
def directoryValue? (text : List Char) : Option (List Char) :=
  (directoryForm.first? text).map (trim ·.value)

/-- The commit that is given. -/
def commitValue? (text : List Char) : Option (List Char) :=
  (commitForm.first? text).map (·.value)

/-! ### Repositories -/

/-- The text without the slashes around it. -/
def withoutSlashes (s : List Char) : List Char :=
  dropWhileEnd (· == '/') (s.dropWhile (· == '/'))

/-- The first two of several names, if neither is empty. -/
def firstTwo : List (List Char) → Option (String × String)
  | owner :: name :: _ =>
    if owner.isEmpty || name.isEmpty then none
    else some (String.ofList owner, String.ofList name)
  | _ => none

/-- The host of the service. -/
def host : List Char := "github.com".toList

/-- The owner and the name of a repository.  A value that mentions the host is read as an address. -/
def ownerAndName (repository : List Char) : Except Url.Fault (Option (String × String)) :=
  let value := trim repository
  if containsText host value then
    (Url.path value).map fun path => firstTwo ((withoutSlashes path).splitOn '/')
  else if value.contains '/' then .ok (firstTwo (value.splitOn '/'))
  else .ok none

end BuildMend.TspLocation
