import BuildMend.Number.Binary

/-!
The decimal texts of binary numbers.

* `shortest`: the fewest digits that read back as the number, and of those the nearest to it.
* `Binary.text`: those digits, written positionally from `0.0001` up to below `10 ^ 16` and with an
  exponent elsewhere.
* `Binary.fixed`: a number with a fixed count of places, a half to the even neighbour.
-/

namespace BuildMend.Number

/-- The number of decimal digits of a natural. -/
def digitCount (n : Nat) : Nat := (Nat.toDigits 10 n).length

/-- The power of ten of the first digit of a positive quotient. -/
def leadingPower (num den : Nat) : Int :=
  if den ≤ num then digitCount (num / den) - 1
  else
    let d := digitCount (den / num)
    if den ≤ num * Nat.pow 10 (d - 1) then -((d : Int) - 1) else -(d : Int)

/-- A quotient divided by a power of ten. -/
def overPowerOfTen (num den : Nat) (power : Int) : Nat × Nat :=
  if power < 0 then (num * Nat.pow 10 power.natAbs, den)
  else (num, den * Nat.pow 10 power.natAbs)

/-- Of the two neighbours of a quotient on the grid of a power of ten, the nearer one that reads back
as the number `x`. -/
def readsBackOn (x : Binary) (num den : Nat) (power : Int) : Option Nat :=
  let (n, d) := overPowerOfTen num den power
  let below := n / d
  let near := roundQuotient n d
  let far := if near == below then below + 1 else below
  if Binary.ofDecimal false near power == x then some near
  else if Binary.ofDecimal false far power == x then some far
  else none

/-- The first grid, from `count` digits on, that has a point which reads back as the number. -/
def shortestFrom (x : Binary) (num den : Nat) (lead : Int) : (fuel count : Nat) → Nat × Int
  | 0, count => (num * Nat.pow 10 count / den, -(count : Int))
  | fuel + 1, count =>
    let power := lead - count + 1
    match readsBackOn x num den power with
    | some digits => (digits, power)
    | none => shortestFrom x num den lead fuel (count + 1)

/-- The fewest digits, with the power of ten of the last one, that read back as the positive number
`mantissa · 2 ^ exponent`; seventeen are always enough. -/
def shortest (mantissa : Nat) (exponent : Int) : Nat × Int :=
  let (num, den) := Binary.magnitude mantissa exponent
  shortestFrom (.finite false mantissa exponent) num den (leadingPower num den) 17 1

/-- The digits without the zeros at their end, with the power of ten of the last one left. -/
def dropZeros : List Char → Int → List Char × Int
  | ds, power =>
    let zeros := (ds.reverse.takeWhile (· == '0')).length
    (ds.take (ds.length - zeros), power + zeros)

/-- Digits with a decimal point after the first `point` of them, at least one digit on either
side. -/
def positional (ds : List Char) (point : Int) : List Char :=
  if point ≤ 0 then '0' :: '.' :: List.replicate point.natAbs '0' ++ ds
  else
    let whole := point.natAbs
    let fraction := ds.drop whole
    ds.take whole ++ List.replicate (whole - ds.length) '0' ++
      '.' :: (if fraction.isEmpty then ['0'] else fraction)

/-- The exponent part of a text: a sign and at least two digits. -/
def exponentText (e : Int) : List Char :=
  let ds := Nat.toDigits 10 e.natAbs
  'e' :: (if e < 0 then '-' else '+') :: List.replicate (2 - ds.length) '0' ++ ds

/-- The text of a positive number with the digits `ds` whose last stands for `10 ^ power`. -/
def decimalText (ds : List Char) (power : Int) : List Char :=
  let (ds, power) := dropZeros ds power
  let point := (ds.length : Int) + power
  if -4 < point && point ≤ 16 then positional ds point
  else
    match ds with
    | [] => []
    | d :: rest => d :: (if rest.isEmpty then [] else '.' :: rest) ++ exponentText (point - 1)

/-- The sign of a number before its digits. -/
def signText (negative : Bool) : String := if negative then "-" else ""

/-- The shortest text that reads back as the number. -/
def Binary.text : Binary → String
  | .nan => "nan"
  | .infinite negative => signText negative ++ "inf"
  | .finite negative 0 _ => signText negative ++ "0.0"
  | .finite negative m e =>
    let (digits, power) := shortest m e
    signText negative ++ String.ofList (decimalText (Nat.toDigits 10 digits) power)

/-- A natural number of units of `10 ^ -places`, with all its places. -/
def placesText (places units : Nat) : String :=
  let ds := Nat.toDigits 10 units
  let ds := List.replicate (places + 1 - ds.length) '0' ++ ds
  let whole := ds.length - places
  String.ofList (ds.take whole ++ '.' :: ds.drop whole)

/-- The number with `places` digits after the point. -/
def Binary.fixed (places : Nat) : Binary → String
  | .nan => "nan"
  | .infinite negative => signText negative ++ "inf"
  | .finite negative m e =>
    let (num, den) := Binary.magnitude m e
    signText negative ++ placesText places (roundQuotient (num * Nat.pow 10 places) den)

end BuildMend.Number
