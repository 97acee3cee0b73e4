import BuildMend.Number.Decimal
import BuildMend.Text.Blank
import BuildMend.Text.Digit

/-!
Numbers that are whole or binary fractions, and the numerals that people write for them.

* `Amount`: a whole number of any size, or a binary fraction; `Amount.text` is its text.
* `readInteger?`: a numeral of a whole number, with single underscores between digits allowed.
* `readDecimal?`: a numeral of a decimal fraction, an infinity or the absence of a number.

Blanks around a numeral are ignored, all but the information separators, and digits of every script
count.  A whole number is read only up to `digitLimit` digits.
-/

namespace BuildMend.Number

open Text

/-- The greatest count of digits of a whole number that is read. -/
def digitLimit : Nat := 4300

/-- A whole number of any size, or a binary fraction. -/
inductive Amount where
  | whole (n : Int)
  | fraction (x : Binary)
  deriving DecidableEq, Repr

/-- The text of an amount: all digits of a whole number, the shortest text of a fraction. -/
def Amount.text : Amount → String
  | .whole n => toString n
  | .fraction x => x.text

/-- The amounts that are zero or less. -/
def Amount.isNonPositive : Amount → Bool
  | .whole n => n ≤ 0
  | .fraction x => x.isNonPositive

/-- The binary number nearest to an amount. -/
def Amount.toBinary : Amount → Binary
  | .whole n => .ofInt n
  | .fraction x => x

/-- The blanks that may stand around a numeral: all but the information separators. -/
def isMargin (c : Char) : Bool := isBlank c && !(28 ≤ c.toNat && c.toNat ≤ 31)

/-- A numeral without the blanks around it. -/
def bareNumeral (s : String) : List Char := dropWhileEnd isMargin (s.toList.dropWhile isMargin)

/-- Whether an amount is a whole number beyond all finite binary numbers. -/
def Amount.isTooLarge : Amount → Bool
  | .whole n => (Binary.ofInt n).isInfinite
  | .fraction _ => false

/-- A sign at the front, whether it is a minus, and the text after it. -/
def readSign : List Char → Bool × List Char
  | '-' :: rest => (true, rest)
  | '+' :: rest => (false, rest)
  | s => (false, s)

/-- The values of the digits at the front and the text after them, when `joined` says whether a digit
stands before; an underscore between two digits is passed over. -/
def readDigitsFrom : (joined : Bool) → List Char → List Nat × List Char
  | _, [] => ([], [])
  | joined, c :: rest =>
    match digitValue? c with
    | some d =>
      let (ds, after) := readDigitsFrom true rest
      (d :: ds, after)
    | none =>
      if joined && c == '_' && (rest.head?.bind digitValue?).isSome then readDigitsFrom false rest
      else ([], c :: rest)

/-- The values of the digits at the front, single underscores between them allowed, and the text
after them. -/
def readDigits (s : List Char) : List Nat × List Char := readDigitsFrom false s

/-- The whole number that a numeral writes. -/
def readInteger? (s : String) : Option Int :=
  let (negative, rest) := readSign (bareNumeral s)
  match readDigits rest with
  | ([], _) => none
  | (ds, []) =>
    if digitLimit < ds.length then none
    else
      let n : Int := ofDigits ds
      some (if negative then -n else n)
  | _ => none

/-- The exponent after the digits of a decimal numeral, zero if there is none. -/
def readExponent? : List Char → Option Int
  | [] => some 0
  | e :: rest =>
    if e == 'e' || e == 'E' then
      let (negative, rest) := readSign rest
      match readDigits rest with
      | ([], _) => none
      | (ds, []) =>
        let n : Int := ofDigits ds
        some (if negative then -n else n)
      | _ => none
    else none

/-- The names of the numbers that have no digits. -/
def readNamed? (negative : Bool) (s : List Char) : Option Binary :=
  let name := String.ofList (s.map Char.toLower)
  if name == "inf" || name == "infinity" then some (.infinite negative)
  else if name == "nan" then some .nan
  else none

/-- The number nearest to what a decimal numeral writes. -/
def readDecimal? (s : String) : Option Binary :=
  let (negative, rest) := readSign (bareNumeral s)
  match readNamed? negative rest with
  | some x => some x
  | none =>
    let (whole, rest) := readDigits rest
    let (fraction, rest) :=
      match rest with
      | '.' :: rest => readDigits rest
      | _ => ([], rest)
    if whole.isEmpty && fraction.isEmpty then none
    else
      (readExponent? rest).map fun e =>
        .ofDecimal negative (ofDigits (whole ++ fraction)) (e - fraction.length)

end BuildMend.Number
