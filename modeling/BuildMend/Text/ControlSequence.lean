import BuildMend.Text.Scan

/-!
Control sequences of a terminal.

* `sequenceForm`: where a control sequence stands: an escape, an opening bracket, parameters,
  intermediate characters and a final character.
* `withoutSequences`: a text without its control sequences.

The text is looked at once, so what comes together when a sequence is taken out is no new sequence.
-/

namespace BuildMend.Text

/-- The character that introduces a control sequence. -/
def escapeChar : Char := '\x1b'

/-- The parameters of a control sequence: digits and the marks up to the question mark. -/
def isParameter (c : Char) : Bool := '0' ≤ c && c ≤ '?'

/-- What may stand between the parameters and the final character: the space and the marks after
it. -/
def isIntermediate (c : Char) : Bool := ' ' ≤ c && c ≤ '/'

/-- The characters that end a control sequence: the letters and the marks around them. -/
def isFinal (c : Char) : Bool := '@' ≤ c && c ≤ '~'

/-- Where a control sequence stands; nothing takes its place. -/
def sequenceForm : Form (List Char) := fun _ text => do
  let rest ← afterLiteral? [escapeChar, '['] text
  match (rest.dropWhile isParameter).dropWhile isIntermediate with
  | [] => none
  | c :: after => if isFinal c then return ([], text.length - after.length) else none

/-- A text without its control sequences. -/
def withoutSequences (s : String) : String :=
  String.ofList (replaceAll sequenceForm s.toList)

end BuildMend.Text
