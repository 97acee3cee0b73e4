import BuildMend.Text.Digit

/-!
Numeric addresses of hosts.

* `isIPv4`: four numbers up to 255 between dots, without leading zeros.
* `isIPv6`: eight groups of hexadecimal digits between colons, of which one run of zero groups may be
  left out and the last two may be written as an IPv4 address; a zone may follow a percent sign.
-/

namespace BuildMend.Text.HostAddress

/-- A number up to 255 without leading zeros. -/
def isOctetNumber (s : List Char) : Bool :=
  !s.isEmpty && s.all isAsciiDigit && s.length ≤ 3 && (s.length == 1 || s.head? != some '0') &&
    ofAsciiDigits s ≤ 255

/-- Four numbers up to 255 between dots. -/
def isIPv4 (s : List Char) : Bool :=
  let parts := s.splitOn '.'
  parts.length == 4 && parts.all isOctetNumber

/-- The hexadecimal digits. -/
def isHexDigit (c : Char) : Bool :=
  isAsciiDigit c || ('a' ≤ c && c ≤ 'f') || ('A' ≤ c && c ≤ 'F')

/-- A group of one to four hexadecimal digits. -/
def isGroup (s : List Char) : Bool := !s.isEmpty && s.length ≤ 4 && s.all isHexDigit

/-- The groups with an IPv4 address at the end written as two groups; nothing if a dotted end is no
address. -/
def withoutDotted? (parts : List (List Char)) : Option (List (List Char)) :=
  match parts.getLast? with
  | none => none
  | some last =>
    if last.contains '.' then
      if isIPv4 last then some (parts.dropLast ++ [['0'], ['0']]) else none
    else some parts

/-- The number of groups on one side of a run that is left out, when the side may be empty only at
the end of the address. -/
def sideCount? (side : List (List Char)) (outer : Option (List Char)) : Option Nat :=
  if outer == some [] then if side.length == 1 then some 0 else none
  else if side.all isGroup then some side.length else none

/-- Groups between colons, eight of them or with one run left out. -/
def areGroups (parts : List (List Char)) : Bool :=
  let inner := (parts.drop 1).dropLast
  match inner.count [] with
  | 0 => parts.length == 8 && parts.all isGroup
  | 1 =>
    let high := (parts.take 1) ++ inner.takeWhile (!·.isEmpty)
    let low := (inner.dropWhile (!·.isEmpty)).drop 1 ++ parts.drop (parts.length - 1)
    match sideCount? high parts.head?, sideCount? low parts.getLast? with
    | some h, some l => h + l < 8
    | _, _ => false
  | _ => false

/-- An address of groups, with an optional zone that is not empty. -/
def isIPv6 (s : List Char) : Bool :=
  let address := s.takeWhile (· != '%')
  let zone := s.dropWhile (· != '%')
  let zoneOk := zone.isEmpty || (1 < zone.length && !(zone.drop 1).contains '%')
  let parts := address.splitOn ':'
  zoneOk && 3 ≤ parts.length &&
    match withoutDotted? parts with
    | none => false
    | some parts => parts.length ≤ 9 && areGroups parts

end BuildMend.Text.HostAddress
