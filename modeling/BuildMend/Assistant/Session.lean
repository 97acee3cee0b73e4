import BuildMend.Assistant.Profile
import BuildMend.Assistant.Prompt
import BuildMend.World.Basic

/-!
Sessions with the assistant.

* `Session`: a session bound to a directory: its set-up, its state and the client attached to it.
* `Desk`, `SessionAction`: a session in the world, and what changes the two.
* `Session.begin`, `Session.send`, `Session.askForFix`, `Session.dispose`: the life of a
  session: it is initialized once, answers prompts, and is disposed.
* `Session.enter`: an initialization that disposes the session when it fails.
* `Session.within`: an act within a session that is disposed however the act ends.

A client that fails to connect stays attached, so that disposing the session disconnects it.
-/

namespace BuildMend

open Number Text

/-- A session with the assistant. -/
structure Session where
  /-- The text of the directory that the assistant works in. -/
  directory : String
  systemPrompt : String
  tools : List String
  model : String
  profile : AssistantProfile
  /-- Whether the assistant's words are shown as they come. -/
  streams : Bool
  state : SessionState := .uninitialized
  /-- What the attached client will do. -/
  client : Option ClientScript := none

/-- A session in the world. -/
structure Desk where
  world : World
  session : Session

/-- What changes a session and the world. -/
abbrev SessionAction (α : Type) := Act Desk α

namespace Session

/-- The session that mends the builds of a project. -/
def forFixes (profile : AssistantProfile) (streams : Bool) (directory : String) : Session :=
  { directory, profile, streams
    systemPrompt := Prompt.fixInstructions directory
    tools := mendTools
    model := profile.model }

/-- The options of the session's clients; an empty path of the client's program is none. -/
def options (s : Session) : ClientOptions :=
  { workingDirectory := s.directory
    allowedTools := s.tools
    model := s.model
    permissionMode := s.profile.permissionMode
    cliPath := firstGiven [s.profile.cliPath]
    systemPrompt := s.systemPrompt }

/-- An action in the world of a session. -/
def inWorld {α : Type} (a : Action α) : SessionAction α :=
  a.zoom Desk.world fun d w => { d with world := w }

/-- The session changes. -/
def change (f : Session → Session) : SessionAction Unit :=
  modify fun d => { d with session := f d.session }

/-- The session as it stands. -/
def current : SessionAction Session := return (← get).session

/-- A log record of the session. -/
def note (level : Level) (text : String) : SessionAction Unit :=
  inWorld (.log level .session text)

/-! ### Connecting -/

/-- The next client of the script is created. -/
def nextClient (options : ClientOptions) : Action ClientScript := do
  .record (.client options)
  let w ← get
  match w.clients with
  | [] => return {}
  | c :: rest =>
    set { w with clients := rest }
    return c

/-- A client is attached and connected. -/
def start : SessionAction Unit := do
  let s ← current
  let client ← inWorld (nextClient s.options)
  change ({ · with client := some client })
  inWorld (.record .connect)
  match client.connectFailure with
  | some m => if m.isClient then .fault (.assistantUnreachable m) else .fail (.mishap m)
  | none => note .info s!"Assistant connected (model: {s.model})"

/-- The session is made ready for prompts, once in its life. -/
def begin : SessionAction Unit := do
  let s ← current
  if s.state != .uninitialized then .fault (.cannotInitialize s.state)
  start
  change ({ · with state := .initialized })
  note .debug s!"Assistant session ready in {s.directory}"

/-! ### Prompts -/

/-- The session must be initialized and not disposed. -/
def checkReady : SessionAction Unit := do
  let s ← current
  if s.state != .initialized then .fault (.notInitialized s.state)

/-- Something is shown, in a session that shows the assistant's words. -/
def emit (text : String) : SessionAction Unit := do
  if (← current).streams then inWorld (.record (.output text))

/-- The next turn of the attached client. -/
def nextTurn : SessionAction Turn := do
  let s ← current
  match s.client with
  | none => return {}
  | some client =>
    change ({ · with client := some { client with turns := client.turns.tail } })
    return client.turns.headD {}

/-- What the client raises in a turn. -/
def raiseInTurn {α : Type} (m : Mishap) : SessionAction α :=
  if m.isClient then .fault (.assistantFailed m) else .fail (.mishap m)

/-- A part of what the assistant says; the texts among them are kept. -/
def hearBlock : Block → SessionAction (List String)
  | .text s => do
    emit s
    return [s]
  | .tool name => do
    note .debug s!"Assistant tool call: {name}"
    emit s!"🔧 Using tool: {name}"
    return []
  | .thinking _ => return []

/-- The parts of a message in their order. -/
def hearBlocks : List Block → SessionAction (List String)
  | [] => return []
  | b :: rest => do
    let first ← hearBlock b
    return first ++ (← hearBlocks rest)

/-- A message of the client; an end with an error is a fault, named by its text or else its kind. -/
def hearMessage : Message → SessionAction (List String)
  | .assistant blocks => hearBlocks blocks
  | .result isError kind text cost => do
    if isError then .fault (.assistantReported ((firstGiven [text]).getD kind))
    if let some cost := cost then
      if cost.isTooLarge then .fail .numberTooLarge
      note .debug s!"Assistant turn cost: ${cost.toBinary.fixed 4}"
    return []
  | .other => return []

/-- The messages of a turn in their order, those after its end too. -/
def hearMessages : List Message → SessionAction (List String)
  | [] => return []
  | m :: rest => do
    let first ← hearMessage m
    return first ++ (← hearMessages rest)

/-- What follows the messages of a turn. -/
def endTurn : TurnEnd → SessionAction Unit
  | .ends leavings failure => do
    inWorld (.leave leavings)
    if let some m := failure then raiseInTurn m
  | .hangs => do
    match (← current).profile.limit with
    | some limit => .fault (.assistantTimeout limit)
    | none => .fail .stalled
  | .cancelled => .fail .cancelled

/-- The answer to a prompt: the texts of the turn, a line each, without blanks around them. -/
def takeTurn (prompt : String) : SessionAction String := do
  let turn ← nextTurn
  inWorld (.record (.query prompt))
  if let some m := turn.refusal then raiseInTurn m
  let texts ← hearMessages turn.messages
  endTurn turn.ending
  return trimString ("\n".intercalate texts)

/-- The answer to a prompt, within the limit of the session: a limit of zero or less is over before
the prompt is sent, and one that is too large cannot be set. -/
def send (prompt : String) : SessionAction String := do
  checkReady
  match (← current).profile.limit with
  | some limit =>
    if limit.isNonPositive then .fault (.assistantTimeout limit)
    else if limit.isTooLarge then .fail .numberTooLarge
    else takeTurn prompt
  | none => takeTurn prompt

/-- The answer to the request to mend the errors of a build. -/
def askForFix (errors : List Diagnostic) (output : String) : SessionAction String := do
  checkReady
  send (Prompt.fixRequest errors output)

/-! ### The end of a session -/

/-- The attached client, if there is one, is detached and disconnected. -/
def stop : SessionAction Unit := do
  let s ← current
  change ({ · with client := none })
  if let some client := s.client then
    inWorld (.record .disconnect)
    if let some m := client.disconnectFailure then
      if m.isClient then note .warning s!"Failed to disconnect assistant cleanly: {m.text}"
      else .fail (.mishap m)

/-- The session ends; a second end does nothing. -/
def dispose : SessionAction Unit := do
  if (← current).state != .disposed then
    change ({ · with state := .disposed })
    stop
    note .debug "Assistant session disposed"

/-- The session is initialized, and disposed if that fails. -/
def enter : SessionAction Unit := do
  match ← Act.attempt begin with
  | .ok _ => return
  | .error f =>
    dispose
    .fail f

/-- An act within a session, which is disposed however the act ends. -/
def within {α : Type} (s : Session) (body : SessionAction α) : Action α := fun w =>
  let (r, d) := Act.closing body dispose ⟨w, s⟩
  (r, d.world)

end Session

end BuildMend
