import BuildMend.Failure
import BuildMend.World.Event

/-!
The world of a run, and the actions in it.

* `World`: the files, the environment, what the surroundings will do, and what has happened.
* `Path.followed`: a path without double dots, if the system can follow it.
* `World.trace`: the events in the order in which they happened.
* `Act`: what changes a state and ends in a value or a failure; the state is kept in either case.
* `Action`: what changes the world.
* `Act.zoom`: an act on a part of a state.
* `closing`: an act, however it ended, followed by a closing act.
* `Act.bind_apply` and the lemmas about single acts say what an act does to a state.
-/

namespace BuildMend

open Text

/-- A path without double dots; the system does not follow one with a null character in it, even where
double dots take that name away. -/
def Path.followed (p : Path) : Except Failure Path :=
  if p.hasNull then .error .nullInPath else .ok p.resolve

/-- The files, the environment, what the surroundings will do, and what has happened. -/
structure World where
  tree : FileTree
  /-- The directory in which the program is called. -/
  directory : Path := []
  environment : List (String × String) := []
  processes : List ProcessScript := []
  clients : List ClientScript := []
  replies : List Reply := []
  /-- The events so far, the latest first. -/
  past : List Event := []

namespace World

/-- The events in the order in which they happened. -/
def trace (w : World) : List Event := w.past.reverse

/-- The value of an environment variable. -/
def env? (w : World) (name : String) : Option String :=
  (w.environment.find? fun (n, _) => n == name).map (·.2)

end World

/-- What changes a state and ends in a value or a failure. -/
abbrev Act (σ α : Type) := ExceptT Failure (StateM σ) α

/-- What changes the world. -/
abbrev Action (α : Type) := Act World α

namespace Act

variable {σ τ α β : Type}

/-- An act on a part of a state. -/
def zoom (part : σ → τ) (withPart : σ → τ → σ) (a : Act τ α) : Act σ α := fun s =>
  let (r, t) := a (part s)
  (r, withPart s t)

/-- The act that ends in a failure. -/
def fail (f : Failure) : Act σ α := throw f

/-- The act that ends in a fault. -/
def fault (f : Fault) : Act σ α := throw (.fault f)

/-- What an act does when run, with its failure as a value. -/
def attempt (a : Act σ α) : Act σ (Except Failure α) := fun s =>
  let (r, s) := a s
  (.ok r, s)

/-- An act, and a closing act however the first ended.  A failure of the closing act hides one of the
first; an act that waits for ever is not closed. -/
def closing (body : Act σ α) (close : Act σ Unit) : Act σ α := do
  match ← body.attempt with
  | .ok a =>
    close
    return a
  | .error .stalled => throw .stalled
  | .error f =>
    close
    throw f

/-- A known outcome, as an act. -/
def ofExcept (r : Except Failure α) : Act σ α := fun s => (r, s)

/-! ### Acts on a state -/

@[simp] theorem pure_apply (a : α) (s : σ) : (pure a : Act σ α) s = (.ok a, s) := rfl

/-- After an act that ends in a value the next one goes on; a failure ends both. -/
theorem bind_apply (a : Act σ α) (f : α → Act σ β) (s : σ) :
    (a >>= f) s =
      match a s with
      | (.ok x, t) => f x t
      | (.error e, t) => (.error e, t) := by
  show (match a s with | (r, t) => ExceptT.bindCont f r t) = _
  obtain ⟨r, t⟩ := a s
  cases r <;> rfl

@[simp] theorem zoom_apply (part : σ → τ) (withPart : σ → τ → σ) (a : Act τ α) (s : σ) :
    a.zoom part withPart s = ((a (part s)).1, withPart s (a (part s)).2) := rfl

@[simp] theorem fail_apply (f : Failure) (s : σ) : (fail f : Act σ α) s = (.error f, s) := rfl

@[simp] theorem attempt_apply (a : Act σ α) (s : σ) : a.attempt s = (.ok (a s).1, (a s).2) := rfl

end Act

namespace Action

/-- Something happens that others can see. -/
def record (e : Event) : Action Unit := modify fun w => { w with past := e :: w.past }

/-- A log record is written. -/
def log (level : Level) (source : Source) (text : String) : Action Unit :=
  record (.log level source text)

/-- Something is left behind in the files. -/
def leave (l : Leavings) : Action Unit := modify fun w => { w with tree := w.tree.leave l }

/-- A path is looked for; the system refuses if it is too long. -/
def lookFor (p : Path) : Action Unit := do
  if (← get).tree.isTooLong p then throw (.pathTooLong p.fullText)

/-- The text of a file. -/
def readFile (p : Path) : Action String := do
  let w ← get
  match w.tree.content? p with
  | none => throw (.isDirectory p.fullText)
  | some content =>
    match Utf8.decode content with
    | .ok text => return String.ofList text
    | .error e => throw (.undecodable (.octets e))

/-- A file gets a text. -/
def writeFile (p : Path) (text : String) : Action Unit :=
  modify fun w => { w with tree := w.tree.write p (Utf8.encodeString text) }

/-! ### Actions on a world -/

@[simp] theorem record_apply (e : Event) (w : World) :
    record e w = (.ok (), { w with past := e :: w.past }) := rfl

@[simp] theorem leave_apply (l : Leavings) (w : World) :
    leave l w = (.ok (), { w with tree := w.tree.leave l }) := rfl

@[simp] theorem writeFile_apply (p : Path) (text : String) (w : World) :
    writeFile p text w =
      (.ok (), { w with tree := w.tree.write p (Utf8.encodeString text) }) := rfl

end Action

end BuildMend
