/-!
Decimal digits of every script.

* `digitValue?`: the value of a decimal digit, from the code point of its script's zero.
* `isAsciiDigit`: the ten digits of ASCII.
* `ofDigits`: the number that ASCII digits write.
-/

namespace BuildMend.Text

/-- The code points of the zeros outside ASCII; the nine digits of a script follow its zero. -/
def zeroTable : List Nat :=
  [
    1632, 1776, 1984, 2406, 2534, 2662, 2790, 2918, 3046, 3174, 3302, 3430,
    3558, 3664, 3792, 3872, 4160, 4240, 6112, 6160, 6470, 6608, 6784, 6800,
    6992, 7088, 7232, 7248, 42528, 43216, 43264, 43472, 43504, 43600, 44016, 65296,
    66720, 68912, 69734, 69872, 69942, 70096, 70384, 70736, 70864, 71248, 71360, 71472,
    71904, 72016, 72784, 73040, 73120, 92768, 92864, 93008, 120782, 120792, 120802, 120812,
    120822, 123200, 123632, 125264, 130032
  ]

/-- The digits zero to nine of ASCII. -/
def isAsciiDigit (c : Char) : Bool := '0' ≤ c && c ≤ '9'

/-- The value of a decimal digit of any script. -/
def digitValue? (c : Char) : Option Nat :=
  if isAsciiDigit c then some (c.toNat - 48)
  else (zeroTable.find? fun z => z ≤ c.toNat && c.toNat ≤ z + 9).map (c.toNat - ·)

/-- The number written by digits, most significant first. -/
def ofDigits (digits : List Nat) : Nat := digits.foldl (fun n d => 10 * n + d) 0

/-- The number written by ASCII digits. -/
def ofAsciiDigits (s : List Char) : Nat := ofDigits (s.map fun c => c.toNat - 48)

end BuildMend.Text
