import BuildMend.Assistant.Session

/-!
Searching for a specification that has moved, with the help of the assistant.

* `SpecLocation`: where the assistant says it is now, and at which commit.
* `SpecLocation.ofAnswer`: the location in the first object without inner braces of an answer.
* `SpecSearch.locate`: the location that the assistant finds; its failures give no location.
-/

namespace BuildMend

open Text

/-- A place and a commit, each as the assistant gives it, null if it gives none. -/
structure SpecLocation where
  path : Json
  commit : Json

namespace SpecLocation

/-- No location. -/
def none : SpecLocation := ⟨.null, .null⟩

/-- Where an object without inner braces stands: an opening brace, at least one other character and a
closing brace. -/
def objectForm : Form (List Char) := fun _ text =>
  match text with
  | '\x7b' :: rest =>
    let inner := rest.takeWhile fun c => c != '\x7b' && c != '\x7d'
    match rest.drop inner.length with
    | '\x7d' :: _ =>
      if inner.isEmpty then .none else some ('\x7b' :: inner ++ ['\x7d'], inner.length + 2)
    | _ => .none
  | _ => .none

/-- A value, or null if it stands for nothing. -/
def orNull (v : Json) : Json := if v.isEmptyValue then .null else v

/-- The member of an object, null if it is not there or stands for nothing. -/
def member (name : String) (v : Json) : Json := orNull ((v.get? name).getD .null)

/-- The location that an object gives. -/
def ofObject (v : Json) : SpecLocation := ⟨member "path" v, member "commit" v⟩

/-- What an answer holds: a location, an object that cannot be read, or a fault that stops the
search. -/
inductive Reading where
  | location (l : SpecLocation)
  | unreadable (object : String)
  | failed (f : Failure)

/-- What the first object of an answer holds.  A number with too many digits and an object that is too
deep stop the search. -/
def read (answer : String) : Reading :=
  match objectForm.first? answer.toList with
  | .none => .location .none
  | some o =>
    match Json.readChars o.value with
    | .ok v => .location (ofObject v)
    | .error (.syntaxFault ..) => .unreadable (String.ofList o.value)
    | .error f => .failed (.badJson f)

/-- The location in an answer; an object that cannot be read gives none. -/
def ofAnswer (answer : String) : Except Failure SpecLocation :=
  match read answer with
  | .location l => .ok l
  | .unreadable _ => .ok .none
  | .failed f => .error f

end SpecLocation

/-- A search for specifications: the directory that the assistant works in, and its set-up. -/
structure SpecSearch where
  directory : String
  profile : AssistantProfile

namespace SpecSearch

/-- A log record of the search. -/
def note (level : Level) (text : String) : Action Unit := .log level .specSearch text

/-- The session that searches a repository. -/
def session (s : SpecSearch) (owner repo : String) : Session :=
  { directory := s.directory
    systemPrompt := Prompt.searchInstructions owner repo
    tools := searchTools
    model := (firstGiven [some s.profile.searchModel]).getD s.profile.model
    profile := s.profile
    streams := false }

/-- The assistant's answer, or nothing after a fault, which is logged. -/
def ask (request : String) : SessionAction (Option String) := do
  match ← Act.attempt (do Session.begin; Session.send request) with
  | .ok answer => return some answer
  | .error (.fault f) =>
    Session.inWorld (note .warning s!"Spec path search failed: {f.message}")
    return none
  | .error f => .fail f

/-- The location in an answer, which is logged. -/
def readAnswer (directory answer : String) : Action SpecLocation := do
  if let .unreadable object := SpecLocation.read answer then
    note .debug s!"Could not decode spec location from: {object}"
  let found ← Act.ofExcept (SpecLocation.ofAnswer answer)
  if found.path.isEmptyValue then
    note .info s!"Spec path search found no new location for {directory}"
  else
    note .info
      s!"Spec path search suggests {found.path.display} (commit: {found.commit.display})"
  return found

/-- The new location of a directory of a repository. -/
def locate (s : SpecSearch) (owner repo directory branch : String) : Action SpecLocation := do
  let request := Prompt.searchRequest owner repo directory branch
  match ← (s.session owner repo).within (ask request) with
  | none => return .none
  | some answer => readAnswer directory answer

end SpecSearch

end BuildMend
