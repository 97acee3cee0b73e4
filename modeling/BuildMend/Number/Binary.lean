/-!
Binary floating-point numbers of double precision, held exactly.

* `Binary`: a number is `± mantissa · 2 ^ exponent`, an infinity, or no number at all.
* `roundQuotient`: a quotient of naturals rounded to the nearest natural, a half to the even one.
* `Binary.ofQuotient`, `Binary.ofDecimal`: the number nearest to a quotient, to a decimal fraction.
* `Binary.isPositive`: the numbers above zero; an absent number is not one of them.
-/

namespace BuildMend.Number

/-- A quotient rounded to the nearest natural, a half to the even neighbour. -/
def roundQuotient (num den : Nat) : Nat :=
  let q := num / den
  let twice := 2 * (num % den)
  if den < twice || (twice == den && q % 2 == 1) then q + 1 else q

/-- A number of double precision. -/
inductive Binary where
  /-- The absence of a number. -/
  | nan
  | infinite (negative : Bool)
  /-- `± mantissa · 2 ^ exponent`, with a mantissa of at most 53 bits. -/
  | finite (negative : Bool) (mantissa : Nat) (exponent : Int)
  deriving DecidableEq, Repr

namespace Binary

/-- The least exponent of a finite number. -/
def minExponent : Int := -1074

/-- The greatest exponent of a finite number. -/
def maxExponent : Int := 971

/-- `num / den · 2 ^ (-exponent)` as a quotient of naturals. -/
def scaled (num den : Nat) (exponent : Int) : Nat × Nat :=
  if exponent < 0 then (num * Nat.pow 2 exponent.natAbs, den) else (num, den * Nat.pow 2 exponent.natAbs)

/-- The exponent at which a quotient has a mantissa of exactly 53 bits, unless it is below the
least exponent. -/
def exponentFor (num den : Nat) : Int :=
  let guess : Int := (num.log2 : Int) - den.log2 - 52
  let (n, d) := scaled num den guess
  max minExponent (if n / d < Nat.pow 2 52 then guess - 1 else guess)

/-- The number nearest to a positive quotient, of two equally near ones the one with an even
mantissa; a quotient beyond the greatest number is infinite. -/
def ofQuotient (negative : Bool) (num den : Nat) : Binary :=
  let e := exponentFor num den
  let (n, d) := scaled num den e
  let m := roundQuotient n d
  let (m, e) := if m == Nat.pow 2 53 then (Nat.pow 2 52, e + 1) else (m, e)
  if maxExponent < e then .infinite negative else .finite negative m e

/-- Zero, with a sign. -/
def zero (negative : Bool) : Binary := .finite negative 0 minExponent

/-- The number nearest to `± digits · 10 ^ exponent`. -/
def ofDecimal (negative : Bool) (digits : Nat) (exponent : Int) : Binary :=
  let size : Int := exponent + (Nat.toDigits 10 digits).length
  if digits == 0 || size < -330 then zero negative
  else if 320 < size then .infinite negative
  else if exponent < 0 then ofQuotient negative digits (Nat.pow 10 exponent.natAbs)
  else ofQuotient negative (digits * Nat.pow 10 exponent.natAbs) 1

/-- The number nearest to an integer. -/
def ofInt (n : Int) : Binary := ofDecimal (n < 0) n.natAbs 0

/-- The infinities. -/
def isInfinite : Binary → Bool
  | .infinite _ => true
  | _ => false

/-- The numbers above zero. -/
def isPositive : Binary → Bool
  | .nan => false
  | .infinite negative => !negative
  | .finite negative m _ => !negative && m != 0

/-- The numbers that are not above zero. -/
def isNonPositive : Binary → Bool
  | .nan => false
  | x => !x.isPositive

/-- The magnitude of a finite number as a quotient of naturals. -/
def magnitude (mantissa : Nat) (exponent : Int) : Nat × Nat :=
  if exponent < 0 then (mantissa, Nat.pow 2 exponent.natAbs)
  else (mantissa * Nat.pow 2 exponent.natAbs, 1)

end Binary

end BuildMend.Number
