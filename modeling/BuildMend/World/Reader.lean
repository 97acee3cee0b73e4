import BuildMend.Json.Writer
import BuildMend.World.Basic

/-!
Worlds written in JSON.

* `World.ofJson`: the world of a document: its files and directories, the environment, and the scripts
  of processes, clients and replies.

A member that is missing, or of another kind than it should be, has its usual value.  Octets are
written as a text, which stands for its UTF-8 form, or as hexadecimal digits under the name `hex`.
-/

namespace BuildMend

open Number Text

namespace Json

/-- The text of a string, if it is one. -/
def asString? : Json → Option String
  | .string s => CodePoint.toString? s
  | _ => none

/-- The whole number of a number. -/
def asInt? : Json → Option Int
  | .number (.whole n) => some n
  | _ => none

/-- The amount of a number. -/
def asAmount? : Json → Option Amount
  | .number n => some n
  | _ => none

/-- The truth of a truth value. -/
def asBool? : Json → Option Bool
  | .bool b => some b
  | _ => none

/-- The elements of an array. -/
def asArray? : Json → Option (List Json)
  | .array vs => some vs
  | _ => none

/-- The members of an object whose names are texts. -/
def asObject? : Json → Option (List (String × Json))
  | .object ms => some <| ms.filterMap fun (name, v) => (CodePoint.toString? name).map (·, v)
  | _ => none

/-- The text of a member. -/
def stringAt? (name : String) (v : Json) : Option String := (v.get? name).bind asString?

/-- The whole number of a member. -/
def intAt? (name : String) (v : Json) : Option Int := (v.get? name).bind asInt?

/-- The amount of a member. -/
def amountAt? (name : String) (v : Json) : Option Amount := (v.get? name).bind asAmount?

/-- Whether a member is true. -/
def isTrueAt (name : String) (v : Json) : Bool := ((v.get? name).bind asBool?).getD false

/-- The elements of a member, none if it is no array. -/
def elementsAt (name : String) (v : Json) : List Json := ((v.get? name).bind asArray?).getD []

/-- The members of a member, none if it is no object. -/
def membersAt (name : String) (v : Json) : List (String × Json) :=
  ((v.get? name).bind asObject?).getD []

/-- The texts among the elements of a member. -/
def stringsAt (name : String) (v : Json) : List String :=
  (v.elementsAt name).filterMap asString?

end Json

namespace WorldReader

open Json

/-- The octets that pairs of hexadecimal digits write. -/
def hexOctets : List Char → Utf8.Octets
  | a :: b :: rest =>
    UInt8.ofNat ((hexValue? a).getD 0 * 16 + (hexValue? b).getD 0) :: hexOctets rest
  | _ => []

/-- The octets that a value writes. -/
def octets (v : Json) : Utf8.Octets :=
  match v.asString? with
  | some s => Utf8.encodeString s
  | none => hexOctets ((v.stringAt? "hex").getD "").toList

/-! ### Mishaps -/

/-- The kinds of mishap by their names. -/
def mishapKinds : List (String × MishapKind) :=
  [("ClaudeSDKError", .client .general), ("CLIConnectionError", .client .connection),
    ("CLINotFoundError", .client .notFound), ("ProcessError", .client .process),
    ("ConnectError", .transport .connection), ("ReadTimeout", .transport .readTimeout),
    ("RemoteProtocolError", .transport .protocol), ("InvalidURL", .invalidUrl),
    ("RuntimeError", .runtime), ("ValueError", .value)]

/-- The kind of mishap with a name. -/
def mishapKind (name : String) : MishapKind :=
  ((mishapKinds.find? fun (n, _) => n == name).map (·.2)).getD .runtime

/-- The text of a mishap: a client that is not found names its path, and a process that fails its exit
code and what it printed. -/
def mishapText (kind : MishapKind) (message : String) (details : Json) : String :=
  match kind with
  | .client .notFound =>
    match firstNonempty (details.stringAt? "cli_path") with
    | some path => s!"{message}: {path}"
    | none => message
  | .client .process =>
    let code :=
      match details.intAt? "exit_code" with
      | some n => s!" (exit code: {n})"
      | none => ""
    let printed :=
      match firstNonempty (details.stringAt? "stderr") with
      | some s => s!"\nError output: {s}"
      | none => ""
    message ++ code ++ printed
  | _ => message
where
  firstNonempty : Option String → Option String
    | some s => if s.isEmpty then none else some s
    | none => none

/-- The mishap that a value writes. -/
def mishap (v : Json) : Mishap :=
  let kind := mishapKind ((v.stringAt? "kind").getD "")
  ⟨kind, mishapText kind ((v.stringAt? "message").getD "") ((v.get? "args").getD .null)⟩

/-- The mishap of a member, if it is there and not null. -/
def mishapAt? (name : String) (v : Json) : Option Mishap :=
  match v.get? name with
  | some (.object ms) => some (mishap (.object ms))
  | _ => none

/-! ### Files -/

/-- The place that a text names from a directory. -/
def placeFrom (top : Path) (name : String) : Path := (top ++ Path.ofText name).resolve

/-- The files of a member, below a directory. -/
def files (top : Path) (v : Json) : List (Path × Utf8.Octets) :=
  (v.membersAt "files").map fun (name, content) => (placeFrom top name, octets content)

/-- The directories of a member, below a directory. -/
def directories (top : Path) (v : Json) : List Path := (v.stringsAt "dirs").map (placeFrom top)

/-- What a script leaves behind below a directory. -/
def leavings (top : Path) (v : Json) : Leavings := ⟨directories top v, files top v⟩

/-! ### Processes -/

/-- The text with which the system refuses: a number, a reason, and the name of a file. -/
def refusal : List Json → String
  | code :: reason :: rest =>
    let named :=
      match rest.head?.bind asString? with
      | some name => s!": {quoted name}"
      | none => ""
    s!"[Errno {code.display}] {reason.display}{named}"
  | _ => ""

/-- How a process goes on: one that hangs may be cancelled meanwhile. -/
def processEnd (v : Json) : ProcessEnd :=
  if v.isTrueAt "hang" || v.isTrueAt "cancel" then
    if v.isTrueAt "cancel" then .cancelled else .hangs
  else .exits ((v.intAt? "exit").getD 0)

/-- The pieces of a process's output. -/
def pieces (v : Json) : List Utf8.Octets :=
  match v.get? "chunks" with
  | some (.array vs) => vs.map octets
  | _ =>
    match v.get? "out" with
    | some out => [octets out]
    | none => []

/-- The script of a process. -/
def processScript (top : Path) (v : Json) : ProcessScript :=
  match v.get? "oserror", v.get? "raise" with
  | some (.array vs), _ => .refused (refusal vs)
  | _, some m => .raises (mishap m)
  | _, _ => .runs (pieces v) (processEnd v) (leavings top v)

/-! ### The assistant -/

/-- A part of a message. -/
def block (v : Json) : Block :=
  match v.stringAt? "text", v.stringAt? "tool" with
  | some s, _ => .text s
  | _, some name => .tool name
  | _, _ => .thinking ((v.stringAt? "thinking").getD "")

/-- A message. -/
def message (v : Json) : Message :=
  match v.get? "assistant", v.get? "result" with
  | some (.array vs), _ => .assistant (vs.map block)
  | _, some r =>
    .result (r.isTrueAt "is_error") ((r.stringAt? "subtype").getD "success") (r.stringAt? "result")
      (r.amountAt? "cost")
  | _, _ => .other

/-- How a turn goes on. -/
def turnEnd (top : Path) (v : Json) : TurnEnd :=
  if v.isTrueAt "hang" || v.isTrueAt "cancel" then
    if v.isTrueAt "cancel" then .cancelled else .hangs
  else .ends (leavings top v) (mishapAt? "stream_error" v)

/-- The script of a turn; a text stands for a message with that text and a success. -/
def turn (top : Path) (v : Json) : Turn :=
  match v.asString? with
  | some s =>
    { messages := [.assistant [.text s], .result false "success" none none] }
  | none =>
    { refusal := mishapAt? "query_error" v
      messages := (v.elementsAt "messages").map message
      ending := turnEnd top v }

/-- The script of a client. -/
def clientScript (top : Path) (v : Json) : ClientScript :=
  { turns := (v.elementsAt "turns").map (turn top)
    connectFailure := mishapAt? "connect_error" v
    disconnectFailure := mishapAt? "disconnect_error" v }

/-! ### The web service -/

/-- The script of a reply: the body is given as octets or as the value that it writes. -/
def reply (v : Json) : Reply :=
  match v.get? "raise" with
  | some m => .raises (mishap m)
  | none =>
    let body :=
      match v.get? "body" with
      | some b => octets b
      | none => Utf8.encodeString ((v.get? "json").getD .null).render
    .answer ((v.intAt? "status").getD 200) body

end WorldReader

open WorldReader in
/-- The world of a document, whose files lie below a directory `top`, in a program that is called in the
directory `here`. -/
def World.ofJson (top here : Path) (v : Json) : World :=
  { tree := ({ files := [], directories := [top, here] } : FileTree).leave (leavings top v)
    directory := here
    environment := (v.membersAt "env").filterMap fun (name, value) =>
      value.asString?.map (name, ·)
    processes := (v.elementsAt "builds").map (processScript top)
    clients := (v.elementsAt "clients").map (clientScript top)
    replies := (v.elementsAt "http").map reply }

end BuildMend
