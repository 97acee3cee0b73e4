import BuildMend.Json.Value
import BuildMend.Text.Scan

/-!
Reading JSON.

* `Json.read`: the value that code points write, or what is wrong with them; `Json.readChars` reads
  characters.
* `Json.Fault.message`: the wording of what is wrong, with the line and column of the place.

Beside the standard, the names `NaN`, `Infinity` and `-Infinity` are numbers.  Of two members with
one name the later one counts.  A control character within a string is a fault, and so is a whole
number of more than `digitLimit` digits, and an array or object that lies within too many others.  An
escape that names half of a surrogate pair reads as the half, unless the other half follows.
-/

namespace BuildMend.Json

open Number Text

/-- What can be wrong at a place in a text. -/
inductive FaultKind where
  | expectingValue
  | expectingName
  | expectingColon
  | expectingComma
  | unterminatedString
  | controlCharacter
  | invalidEscape
  | invalidCodeEscape
  | extraData
  deriving DecidableEq, Repr

/-- The wording of a kind of fault. -/
def FaultKind.message : FaultKind → String
  | .expectingValue => "Expecting value"
  | .expectingName => "Expecting property name enclosed in double quotes"
  | .expectingColon => "Expecting ':' delimiter"
  | .expectingComma => "Expecting ',' delimiter"
  | .unterminatedString => "Unterminated string starting at"
  | .controlCharacter => "Invalid control character at"
  | .invalidEscape => "Invalid \\escape"
  | .invalidCodeEscape => "Invalid \\uXXXX escape"
  | .extraData => "Extra data"

/-- The values that hold others. -/
inductive Container where
  | array
  | object
  deriving DecidableEq, Repr

/-- The name of a kind of container. -/
def Container.name : Container → String
  | .array => "array"
  | .object => "object"

/-- Why reading stopped: a fault with the number of code points from its place to the end, a whole
number with too many digits, or a container within too many others. -/
inductive Stop where
  | fault (kind : FaultKind) (left : Nat)
  | tooManyDigits (count : Nat)
  | tooDeep (container : Container)
  deriving DecidableEq, Repr

/-- What reading a part gives: its value and the text after it. -/
abbrev Result (α : Type) := Except Stop (α × List CodePoint)

/-- A fault at the front of the text that is left. -/
def failAt {α : Type} (kind : FaultKind) (left : List CodePoint) : Except Stop α :=
  .error (.fault kind left.length)

/-- The blanks of the format. -/
def isSpace (p : CodePoint) : Bool :=
  p == .char ' ' || p == .char '\t' || p == .char '\n' || p == .char '\r'

/-- The text without the blanks at its front. -/
def skipSpace (s : List CodePoint) : List CodePoint := s.dropWhile isSpace

/-! ### Strings -/

/-- The value of a hexadecimal digit. -/
def hexValue? (c : Char) : Option Nat :=
  if '0' ≤ c && c ≤ '9' then some (c.toNat - 48)
  else if 'a' ≤ c && c ≤ 'f' then some (c.toNat - 87)
  else if 'A' ≤ c && c ≤ 'F' then some (c.toNat - 55)
  else none

/-- The number that four hexadecimal digits write. -/
def hexQuad? (a b c d : Char) : Option Nat := do
  return ((← hexValue? a) * 16 + (← hexValue? b)) * 256 + (← hexValue? c) * 16 + (← hexValue? d)

/-- The number that the four hexadecimal digits at the front write; something must follow them. -/
def codeUnit? : List CodePoint → Option Nat
  | a :: b :: c :: d :: _ :: _ => hexQuad? a.look b.look c.look d.look
  | _ => none

/-- The character after a backslash that is not a code escape. -/
def simpleEscape? : Char → Option Char
  | '"' => some '"'
  | '\\' => some '\\'
  | '/' => some '/'
  | 'b' => some '\x08'
  | 'f' => some '\x0c'
  | 'n' => some '\n'
  | 'r' => some '\r'
  | 't' => some '\t'
  | _ => none

/-- What a code escape writes after the first half of a pair has been read, when `s` follows it, and
how many code points of `s` belong to it.  Another escape counts only if something follows it. -/
def readSecondHalf (high : Nat) (s : List CodePoint) : Except Stop (CodePoint × Nat) :=
  match s with
  | .char '\\' :: .char 'u' :: digits =>
    if (digits.drop 4).isEmpty then .ok (.ofValue high, 0)
    else
      match codeUnit? digits with
      | none => .error (.fault .invalidCodeEscape (digits.length + 1))
      | some low =>
        if CodePoint.isLowHalf low then .ok (.ofPair high low, 6) else .ok (.ofValue high, 0)
  | _ => .ok (.ofValue high, 0)

/-- What a code escape writes whose digits `s` starts with, and how many code points of `s` belong to
it. -/
def readCodeEscape (s : List CodePoint) : Except Stop (CodePoint × Nat) :=
  match codeUnit? s with
  | none => .error (.fault .invalidCodeEscape (s.length + 1))
  | some n =>
    if CodePoint.isHighHalf n then
      (readSecondHalf n (s.drop 4)).map fun (p, length) => (p, length + 4)
    else .ok (.ofValue n, 4)

/-- What an escape writes whose backslash stands before `s`, and how many code points of `s` belong to
it; `opened` code points are left from the opening quote of the string on. -/
def readEscape (opened : Nat) (s : List CodePoint) : Except Stop (CodePoint × Nat) :=
  match s with
  | [] => .error (.fault .unterminatedString opened)
  | .char 'u' :: digits => (readCodeEscape digits).map fun (p, length) => (p, length + 1)
  | p :: _ =>
    match simpleEscape? p.look with
    | none => .error (.fault .invalidEscape (s.length + 1))
    | some c => .ok (.char c, 1)

/-- Puts a code point in front of a string that has been read. -/
def consPoint (p : CodePoint) (r : Result (List CodePoint)) : Result (List CodePoint) :=
  r.map fun (ps, rest) => (p :: ps, rest)

/-- The string whose opening quote has been read, when the first `skip` code points belong to an
escape; `opened` code points are left from the quote on. -/
def readStringFrom (opened : Nat) : (skip : Nat) → List CodePoint → Result (List CodePoint)
  | _, [] => .error (.fault .unterminatedString opened)
  | skip + 1, _ :: rest => readStringFrom opened skip rest
  | 0, p :: rest =>
    if p == .char '"' then .ok ([], rest)
    else if p == .char '\\' then
      match readEscape opened rest with
      | .error e => .error e
      | .ok (q, length) => consPoint q (readStringFrom opened length rest)
    else if p.value < 32 then .error (.fault .controlCharacter (rest.length + 1))
    else consPoint p (readStringFrom opened 0 rest)

/-- The string whose opening quote has been read. -/
def readString (s : List CodePoint) : Result (List CodePoint) := readStringFrom (s.length + 1) 0 s

/-! ### Numbers -/

/-- The digits of a whole number at the front: a zero alone, or digits that start with none. -/
def readWhole : List Char → List Char × List Char
  | '0' :: rest => (['0'], rest)
  | s => (s.takeWhile isAsciiDigit, s.dropWhile isAsciiDigit)

/-- The digits after a decimal point, none if no digit follows the point. -/
def readPlaces : List Char → List Char × List Char
  | '.' :: rest =>
    let ds := rest.takeWhile isAsciiDigit
    if ds.isEmpty then ([], '.' :: rest) else (ds, rest.dropWhile isAsciiDigit)
  | s => ([], s)

/-- The exponent, if a mark with digits follows. -/
def readPower : List Char → Option Int × List Char
  | [] => (none, [])
  | e :: rest =>
    if e == 'e' || e == 'E' then
      let (negative, after) := readSign rest
      let ds := after.takeWhile isAsciiDigit
      if ds.isEmpty then (none, e :: rest)
      else
        let n : Int := ofAsciiDigits ds
        (some (if negative then -n else n), after.dropWhile isAsciiDigit)
    else (none, e :: rest)

/-- What stands at the front of a text where a number may stand. -/
inductive NumberReading where
  | noNumber
  /-- A number, with the text after it. -/
  | number (n : Amount) (after : List Char)
  | tooManyDigits (count : Nat)

/-- The number at the front of a text before which a minus sign may stand. -/
def readUnsigned (negative : Bool) (s : List Char) : NumberReading :=
  let (whole, rest) := readWhole s
  if whole.isEmpty then .noNumber
  else
    let (places, rest) := readPlaces rest
    let (power, rest) := readPower rest
    if places.isEmpty && power.isNone then
      if digitLimit < whole.length then .tooManyDigits whole.length
      else
        let n : Int := ofAsciiDigits whole
        .number (.whole (if negative then -n else n)) rest
    else
      let x := Binary.ofDecimal negative (ofAsciiDigits (whole ++ places))
        (power.getD 0 - places.length)
      .number (.fraction x) rest

/-- The number at the front of a text. -/
def readNumber : List Char → NumberReading
  | '-' :: rest => readUnsigned true rest
  | s => readUnsigned false s

/-- The characters of numbers. -/
def isNumeral (p : CodePoint) : Bool :=
  isAsciiDigit p.look || p == .char '-' || p == .char '+' || p == .char '.' || p == .char 'e' ||
    p == .char 'E'

/-- The values that are written as words. -/
def namedValues : List (String × Json) :=
  [("null", .null), ("true", .bool true), ("false", .bool false),
    ("NaN", .number (.fraction .nan)), ("Infinity", .number (.fraction (.infinite false))),
    ("-Infinity", .number (.fraction (.infinite true)))]

/-- The value of the word at the front, if one of the given words stands there. -/
def readNamed? (s : List CodePoint) : List (String × Json) → Option (Json × List CodePoint)
  | [] => none
  | (word, value) :: more =>
    match afterLiteral? (CodePoint.ofString word) s with
    | some rest => some (value, rest)
    | none => readNamed? s more

/-- The value that a word or a number writes. -/
def readScalar (s : List CodePoint) : Result Json :=
  match readNamed? s namedValues with
  | some r => .ok r
  | none =>
    let numeral := (s.takeWhile isNumeral).map CodePoint.look
    match readNumber numeral with
    | .noNumber => failAt .expectingValue s
    | .number n after => .ok (.number n, s.drop (numeral.length - after.length))
    | .tooManyDigits count => .error (.tooManyDigits count)

/-! ### Values -/

mutual

/-- The value at the front, read with at most `fuel` steps; at most `depth` containers may lie within
one another. -/
def readValue : (fuel depth : Nat) → List CodePoint → Result Json
  | 0, _, s => failAt .expectingValue s
  | _ + 1, _, [] => failAt .expectingValue []
  | fuel + 1, depth, p :: rest =>
    if p == .char '"' then (readString rest).map fun (ps, rest) => (.string ps, rest)
    else if p == .char '[' then
      match depth with
      | 0 => .error (.tooDeep .array)
      | depth + 1 =>
        match skipSpace rest with
        | .char ']' :: rest => .ok (.array [], rest)
        | rest => (readElements fuel depth rest).map fun (vs, rest) => (.array vs, rest)
    else if p == .char '\x7b' then
      match depth with
      | 0 => .error (.tooDeep .object)
      | depth + 1 =>
        match skipSpace rest with
        | .char '\x7d' :: rest => .ok (.object [], rest)
        | rest => (readMembers fuel depth [] rest).map fun (ms, rest) => (.object ms, rest)
    else readScalar (p :: rest)

/-- The elements from the one at the front to the closing bracket. -/
def readElements : (fuel depth : Nat) → List CodePoint → Result (List Json)
  | 0, _, s => failAt .expectingValue s
  | fuel + 1, depth, s =>
    match readValue fuel depth s with
    | .error e => .error e
    | .ok (v, rest) =>
      match skipSpace rest with
      | .char ']' :: rest => .ok ([v], rest)
      | .char ',' :: rest =>
        (readElements fuel depth (skipSpace rest)).map fun (vs, rest) => (v :: vs, rest)
      | rest => failAt .expectingComma rest

/-- The members from the one at the front to the closing brace, added to those already read. -/
def readMembers : (fuel depth : Nat) → (read : List (List CodePoint × Json)) → List CodePoint →
    Result (List (List CodePoint × Json))
  | 0, _, _, s => failAt .expectingValue s
  | fuel + 1, depth, read, s =>
    match s with
    | .char '"' :: rest =>
      match readString rest with
      | .error e => .error e
      | .ok (name, rest) =>
        match skipSpace rest with
        | .char ':' :: rest =>
          match readValue fuel depth (skipSpace rest) with
          | .error e => .error e
          | .ok (v, rest) =>
            let read := insertMember name v read
            match skipSpace rest with
            | .char '\x7d' :: rest => .ok (read, rest)
            | .char ',' :: rest => readMembers fuel depth read (skipSpace rest)
            | rest => failAt .expectingComma rest
        | rest => failAt .expectingColon rest
    | s => failAt .expectingName s

end

/-! ### Whole texts -/

/-- What is wrong with a text. -/
inductive Fault where
  /-- A fault of a kind, with the number of characters, of lines and of columns up to its place. -/
  | syntaxFault (kind : FaultKind) (offset line column : Nat)
  /-- A whole number with too many digits. -/
  | tooManyDigits (count : Nat)
  /-- A container within too many others. -/
  | tooDeep (container : Container)
  deriving DecidableEq, Repr

/-- The place of a fault in its text: lines and columns count from one. -/
def Stop.inText (text : List CodePoint) : Stop → Fault
  | .tooManyDigits count => .tooManyDigits count
  | .tooDeep container => .tooDeep container
  | .fault kind left =>
    let before := text.take (text.length - left)
    let column := (before.reverse.takeWhile (· != .char '\n')).length + 1
    .syntaxFault kind before.length (before.count (.char '\n') + 1) column

/-- The wording of a fault. -/
def Fault.message : Fault → String
  | .syntaxFault kind offset line column =>
    s!"{kind.message}: line {line} column {column} (char {offset})"
  | .tooManyDigits count =>
    s!"Exceeds the limit ({digitLimit} digits) for integer string conversion: value has " ++
      s!"{count} digits; use sys.set_int_max_str_digits() to increase the limit"
  | .tooDeep container =>
    s!"maximum recursion depth exceeded while decoding a JSON {container.name} from a unicode string"

/-- Whether a fault makes the text an invalid value; a text that is only too deep is none. -/
def Fault.isInvalidValue : Fault → Bool
  | .syntaxFault .. | .tooManyDigits _ => true
  | .tooDeep _ => false

/-- The value of a whole text, between blanks. -/
def readDocument (depth : Nat) (text : List CodePoint) : Except Stop Json :=
  match readValue (2 * text.length + 2) depth (skipSpace text) with
  | .error e => .error e
  | .ok (v, rest) =>
    match skipSpace rest with
    | [] => .ok v
    | rest => failAt .extraData rest

/-- How many containers may lie within one another: the depth that is left to the reader in the set-up
that is modelled.  It is no constant of the format, as it depends on how deep the caller's stack
already is. -/
def depthLimit : Nat := 980

/-- The value that a text writes, with at most `depth` containers within one another. -/
def readWithin (depth : Nat) (text : List CodePoint) : Except Fault Json :=
  (readDocument depth text).mapError (·.inText text)

/-- The value that a text writes. -/
def read (text : List CodePoint) : Except Fault Json := readWithin depthLimit text

/-- The value that characters write. -/
def readChars (text : List Char) : Except Fault Json := read (text.map .char)

end BuildMend.Json
