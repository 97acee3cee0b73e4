import BuildMend.Number.Numeral
import BuildMend.Text.Quoted
import BuildMend.Text.Similarity

/-!
The arguments of the command line.

* `Command`: what the program can be asked for; `Command.options` the options of each.
* `Invocation`: a request that has been understood.
* `Usage`: what is wrong with arguments, and `Usage.message` its wording.
* `Invocation.ofArguments`: the request that arguments make.

Options may stand before and after the path, those of one letter may be joined, and two dashes end the
options.  First of all the options themselves must be right; then their values are read in the order
in which the options were given; then the path must be there, and nothing after it.
-/

namespace BuildMend.CommandLine

open Number Text

/-! ### Commands and options -/

/-- What the program can be asked for. -/
inductive Command where
  | generate
  | migrate
  deriving DecidableEq, Repr

namespace Command

/-- All commands. -/
def all : List Command := [.generate, .migrate]

/-- The name of a command. -/
def name : Command → String
  | .generate => "generate"
  | .migrate => "migrate"

/-- The command with a name. -/
def ofName? (s : String) : Option Command := all.find? (·.name == s)

end Command

/-- What an option is about. -/
inductive OptionId where
  | maxRetries
  | verbose
  | buildLimit
  | assistantLimit
  | quiet
  | dryRun
  | version
  | help
  deriving DecidableEq, Repr

/-- How an option is written. -/
structure OptionForm where
  id : OptionId
  /-- Its letter, if it has one. -/
  letter : Option Char
  long : String
  takesValue : Bool

/-- The option that tells how the program is used. -/
def helpOption : OptionForm := ⟨.help, none, "--help", false⟩

/-- The options before the command. -/
def groupOptions : List OptionForm := [⟨.version, none, "--version", false⟩, helpOption]

/-- The options of a command. -/
def Command.options : Command → List OptionForm
  | .generate =>
    [⟨.maxRetries, some 'r', "--max-retries", true⟩, ⟨.verbose, some 'v', "--verbose", false⟩,
      ⟨.buildLimit, none, "--build-timeout", true⟩,
      ⟨.assistantLimit, none, "--assistant-timeout", true⟩, helpOption]
  | .migrate =>
    [⟨.verbose, some 'v', "--verbose", false⟩, ⟨.quiet, some 'q', "--quiet", false⟩,
      ⟨.dryRun, none, "--dry-run", false⟩, helpOption]

/-! ### What can be wrong -/

/-- What is wrong with arguments. -/
inductive Problem where
  | noArguments
  | noSuchOption (name : String) (close : List String)
  | takesNoValue (name : String)
  | requiresValue (name : String)
  | missingCommand
  | noSuchCommand (name : String) (close : List String)
  | missingPath
  | extraArguments (arguments : List String)
  | noInteger (option value : String)
  | noDecimal (option value : String)
  | outOfRange (option value range : String)
  deriving DecidableEq, Repr

/-- Names that may be meant. -/
def suggestion : List String → String
  | [] => ""
  | [name] => s!" Did you mean {quoted name}?"
  | names =>
    let listed := ", ".intercalate (names.map quoted)
    s!" (Did you mean one of: {listed}?)"

/-- The wording of a problem. -/
def Problem.message : Problem → String
  | .noArguments => ""
  | .noSuchOption name close => s!"No such option {quoted name}.{suggestion close}"
  | .takesNoValue name => s!"Option {quoted name} does not take a value."
  | .requiresValue name => s!"Option {quoted name} requires an argument."
  | .missingCommand => "Missing command."
  | .noSuchCommand name close => s!"No such command {quoted name}.{suggestion close}"
  | .missingPath => "Missing argument 'PATH'."
  | .extraArguments [one] => s!"Got unexpected extra argument ({one})"
  | .extraArguments more =>
    let listed := " ".intercalate more
    s!"Got unexpected extra arguments ({listed})"
  | .noInteger option value =>
    s!"Invalid value for {option}: {quoted value} is not a valid integer range."
  | .noDecimal option value =>
    s!"Invalid value for {option}: {quoted value} is not a valid float range."
  | .outOfRange option value range =>
    s!"Invalid value for {option}: {value} is not in the range {range}."

/-- Where arguments are wrong: at a command, or before it. -/
inductive Place where
  | group
  | command (c : Command)
  deriving DecidableEq, Repr

/-- What is wrong with arguments, and where. -/
structure Usage where
  place : Place
  problem : Problem
  deriving DecidableEq, Repr

/-- How the program is called at a place. -/
def Place.call (program : String) : Place → String
  | .group => program
  | .command c => program ++ " " ++ c.name

/-- The arguments that belong to a place. -/
def Place.arguments : Place → String
  | .group => "[OPTIONS] COMMAND [ARGS]..."
  | .command _ => "[OPTIONS] PATH"

/-- What is told to a user who gives no arguments. -/
def helpLines (program : String) : List String :=
  [s!"Usage: {program} [OPTIONS] COMMAND [ARGS]...",
    "",
    "  SDK codegen - regenerate SDK libraries and fix build errors with an AI",
    "  assistant.",
    "",
    "Options:",
    "  --version  Show the version and exit.",
    "  --help     Show this message and exit.",
    "",
    "Commands:",
    "  generate  Generate the SDK library at PATH and fix build errors.",
    "  migrate   Migrate the SDK library at PATH to the TypeSpec generator."]

/-- The lines that tell what is wrong.  Where an option's value is missing or too much, the usage is
not told. -/
def Usage.lines (program : String) (u : Usage) : List String :=
  match u.problem with
  | .noArguments => helpLines program
  | .takesNoValue _ | .requiresValue _ => [s!"Error: {u.problem.message}"]
  | _ =>
    let call := u.place.call program
    [s!"Usage: {call} {u.place.arguments}", s!"Try '{call} --help' for help.", "",
      s!"Error: {u.problem.message}"]

/-! ### Scanning -/

/-- An option that was given, with its value. -/
abbrev Given := OptionId × Option String

/-- The option with a letter. -/
def byLetter? (forms : List OptionForm) (c : Char) : Option OptionForm :=
  forms.find? (·.letter == some c)

/-- The option with a long name. -/
def byLong? (forms : List OptionForm) (name : String) : Option OptionForm :=
  forms.find? (·.long == name)

/-- What options in one argument come to: those that were given, and one whose value is the next
argument. -/
structure Cluster where
  given : List Given
  waiting : Option (OptionForm × String) := none

/-- Options of one letter that are joined; what follows a letter with a value is the value. -/
def scanLetters (forms : List OptionForm) : List Char → Except Problem Cluster
  | [] => .ok ⟨[], none⟩
  | c :: rest =>
    let name := String.ofList ['-', c]
    match byLetter? forms c with
    | none => .error (.noSuchOption name [])
    | some f =>
      if f.takesValue then
        if rest.isEmpty then .ok ⟨[], some (f, name)⟩
        else .ok ⟨[(f.id, some (String.ofList rest))], none⟩
      else (scanLetters forms rest).map fun r => { r with given := (f.id, none) :: r.given }

/-- An option by its long name, perhaps with a value after an equals sign. -/
def scanLong (forms : List OptionForm) (argument : String) : Except Problem Cluster :=
  let cs := argument.toList
  let name := String.ofList (cs.takeWhile (· != '='))
  let value :=
    match cs.dropWhile (· != '=') with
    | [] => none
    | _ :: v => some (String.ofList v)
  match byLong? forms name with
  | none => .error (.noSuchOption name (closeNames name (forms.map (·.long))))
  | some f =>
    match f.takesValue, value with
    | true, some v => .ok ⟨[(f.id, some v)], none⟩
    | true, none => .ok ⟨[], some (f, name)⟩
    | false, some _ => .error (.takesNoValue name)
    | false, none => .ok ⟨[(f.id, none)], none⟩

/-- The options in an argument that starts with a dash. -/
def scanOptions (forms : List OptionForm) (argument : String) : Except Problem Cluster :=
  match argument.toList with
  | '-' :: '-' :: _ => scanLong forms argument
  | _ => scanLetters forms (argument.toList.drop 1)

/-- Whether an argument holds options: it starts with a dash and is longer. -/
def holdsOptions (argument : String) : Bool :=
  argument.toList.head? == some '-' && 1 < argument.length

/-- What arguments come to: the options that were given and the other arguments. -/
structure Scan where
  given : List Given := []
  others : List String := []

/-- An option in front of what comes after. -/
def Scan.after (given : List Given) (s : Scan) : Scan := { s with given := given ++ s.given }

/-- The options and the other arguments; where options do not mix with others, the first other
argument ends the options. -/
def scan (forms : List OptionForm) (mixed : Bool) : List String → Except Problem Scan
  | [] => .ok {}
  | a :: rest =>
    if a == "--" then .ok { others := rest }
    else if holdsOptions a then
      match scanOptions forms a with
      | .error p => .error p
      | .ok ⟨given, none⟩ => (scan forms mixed rest).map (·.after given)
      | .ok ⟨given, some (f, name)⟩ =>
        match rest with
        | [] => .error (.requiresValue name)
        | v :: rest => (scan forms mixed rest).map (·.after (given ++ [(f.id, some v)]))
    else if mixed then
      (scan forms mixed rest).map fun s => { s with others := a :: s.others }
    else .ok { others := a :: rest }

/-! ### Values -/

/-- The value that counts for an option: the one given last. -/
def Scan.value? (s : Scan) (id : OptionId) : Option String :=
  (s.given.reverse.find? (·.1 == id)).bind (·.2)

/-- Whether an option was given. -/
def Scan.has (s : Scan) (id : OptionId) : Bool := s.given.any (·.1 == id)

/-- Values of options. -/
structure Values where
  maxRetries : Int := 5
  buildLimit : Option Amount := none
  assistantLimit : Option Amount := none

/-- How the option for retries is called in a message. -/
def retriesLabel : String := "'-r' / '--max-retries'"

/-- A number of retries: at least one. -/
def readRetries (value : String) : Except Problem Int :=
  match readInteger? value with
  | none => .error (.noInteger retriesLabel value)
  | some n =>
    if n < 1 then .error (.outOfRange retriesLabel (toString n) "x>=1") else .ok n

/-- A limit in seconds: above zero. -/
def readLimit (label value : String) : Except Problem Amount :=
  match readDecimal? value with
  | none => .error (.noDecimal label value)
  | some x =>
    if x.isNonPositive then .error (.outOfRange label x.text "x>0") else .ok (.fraction x)

/-- The values with that of one more option. -/
def readValue (s : Scan) (v : Values) (id : OptionId) : Except Problem Values :=
  match s.value? id with
  | none => .ok v
  | some text =>
    match id with
    | .maxRetries => (readRetries text).map fun n => { v with maxRetries := n }
    | .buildLimit =>
      (readLimit "'--build-timeout'" text).map fun l => { v with buildLimit := some l }
    | .assistantLimit =>
      (readLimit "'--assistant-timeout'" text).map fun l => { v with assistantLimit := some l }
    | _ => .ok v

/-- The values of the options in the order in which they were given. -/
def readValues (s : Scan) : Except Problem Values :=
  (s.given.map (·.1)).foldlM (readValue s) {}

/-! ### Requests -/

/-- A request that has been understood. -/
inductive Invocation where
  | version
  | help
  /-- The path holds a null character, so nothing can be looked for there. -/
  | nullInPath
  | generate (path : String) (verbose : Bool) (values : Values)
  | migrate (path : String) (verbose quiet dryRun : Bool)

namespace Invocation

/-- The one path among the arguments. -/
def readPath : List String → Except Problem String
  | [] => .error .missingPath
  | [p] => .ok p
  | _ :: more => .error (.extraArguments more)

/-- Whether the path among the arguments holds a null character. -/
def hasNullInPath (arguments : List String) : Bool :=
  arguments.head?.any fun path => path.toList.contains '\x00'

/-- The request for a command. -/
def ofCommand (c : Command) (arguments : List String) : Except Problem Invocation := do
  let s ← scan c.options true arguments
  if s.has .help then return .help
  let values ← readValues s
  if hasNullInPath s.others then return .nullInPath
  let path ← readPath s.others
  match c with
  | .generate => return .generate path (s.has .verbose) values
  | .migrate => return .migrate path (s.has .verbose) (s.has .quiet) (s.has .dryRun)

/-- The names of commands that a word may stand for. -/
def suggestions (name : String) : List String := closeNames name (Command.all.map Command.name)

/-- What the options before the command ask for by themselves. -/
def ofGroupOptions (s : Scan) : Option Invocation :=
  (s.given.map (·.1)).findSome? fun id =>
    if id == .version then some .version else if id == .help then some .help else none

/-- The request of arguments whose command has no such name; a word that starts with a mark is looked
at as an option once more. -/
def ofUnknown (name : String) (rest : List String) : Except Problem Invocation := do
  if (name.toList.head?.any fun c => !c.isAlphanum) then
    let s ← scan groupOptions false (name :: rest)
    if let some i := ofGroupOptions s then return i
  .error (.noSuchCommand name (suggestions name))

/-- The request that arguments make. -/
def ofArguments (arguments : List String) : Except Usage Invocation := do
  if arguments.isEmpty then .error ⟨.group, .noArguments⟩
  let inGroup {α : Type} (r : Except Problem α) : Except Usage α := r.mapError (⟨.group, ·⟩)
  let s ← inGroup (scan groupOptions false arguments)
  match ofGroupOptions s with
  | some i => return i
  | none =>
    match s.others with
    | [] => .error ⟨.group, .missingCommand⟩
    | name :: rest =>
      match Command.ofName? name with
      | none => inGroup (ofUnknown name rest)
      | some c => (ofCommand c rest).mapError (⟨.command c, ·⟩)

end Invocation

end BuildMend.CommandLine
