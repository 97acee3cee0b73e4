/-!
Octets and the text they encode in UTF-8.

* `encode`: the octets of a text.
* `head`: what stands at the front of an octet string, a character or a flaw, and how many octets it
  takes; a flaw takes the longest start of a well-formed sequence, and at least one octet.
* `decodeLossy`: the text of any octet string, with one replacement character for each flaw.
* `decode`: the text of a well-formed octet string, or the first flaw with its place.
* `DecodeError.message`: the wording of a flaw.
-/

namespace BuildMend.Text.Utf8

/-- A string of octets. -/
abbrev Octets := List UInt8

/-! ### Writing -/

/-- An octet of a sequence: a marker and the bits that follow it. -/
def octet (marker bits : Nat) : UInt8 := UInt8.ofNat (marker + bits)

/-- The octets of one character. -/
def encodeChar (c : Char) : Octets :=
  let n := c.toNat
  if n < 0x80 then [octet 0 n]
  else if n < 0x800 then [octet 0xC0 (n / 64), octet 0x80 (n % 64)]
  else if n < 0x10000 then
    [octet 0xE0 (n / 4096), octet 0x80 (n / 64 % 64), octet 0x80 (n % 64)]
  else
    [octet 0xF0 (n / 262144), octet 0x80 (n / 4096 % 64), octet 0x80 (n / 64 % 64),
      octet 0x80 (n % 64)]

/-- The octets of a text. -/
def encode (s : List Char) : Octets := s.flatMap encodeChar

/-- The octets of a string. -/
def encodeString (s : String) : Octets := encode s.toList

/-! ### Reading -/

/-- What can be wrong at a place in an octet string. -/
inductive Flaw where
  /-- An octet that starts no sequence. -/
  | invalidStart
  /-- A sequence whose next octet does not continue it. -/
  | invalidContinuation
  /-- A sequence that the end cuts off. -/
  | unexpectedEnd
  deriving DecidableEq, Repr

/-- What stands at the front of an octet string, with the number of octets it takes. -/
inductive Head where
  | scalar (c : Char) (width : Nat)
  | flaw (f : Flaw) (width : Nat)

/-- The octets that continue a sequence. -/
def isContinuation (b : UInt8) : Bool := 0x80 ≤ b && b < 0xC0

/-- The octets allowed in second place: continuations that make the form neither overlong nor a
surrogate nor greater than the last code point. -/
def isSecond (lead b : UInt8) : Bool :=
  isContinuation b && (lead != 0xE0 || 0xA0 ≤ b) && (lead != 0xED || b < 0xA0) &&
    (lead != 0xF0 || 0x90 ≤ b) && (lead != 0xF4 || b < 0x90)

/-- The low six bits of a continuation. -/
def low (b : UInt8) : Nat := b.toNat % 64

/-- What stands at the front of the octet string that begins with `lead`. -/
def head (lead : UInt8) (rest : Octets) : Head :=
  if lead < 0x80 then .scalar (Char.ofNat lead.toNat) 1
  else if lead < 0xC2 || 0xF5 ≤ lead then .flaw .invalidStart 1
  else
    match rest with
    | [] => .flaw .unexpectedEnd 1
    | b :: rest =>
      if !isSecond lead b then .flaw .invalidContinuation 1
      else if lead < 0xE0 then .scalar (Char.ofNat (lead.toNat % 32 * 64 + low b)) 2
      else
        match rest with
        | [] => .flaw .unexpectedEnd 2
        | c :: rest =>
          if !isContinuation c then .flaw .invalidContinuation 2
          else if lead < 0xF0 then
            .scalar (Char.ofNat (lead.toNat % 16 * 4096 + low b * 64 + low c)) 3
          else
            match rest with
            | [] => .flaw .unexpectedEnd 3
            | d :: _ =>
              if !isContinuation d then .flaw .invalidContinuation 3
              else
                .scalar
                  (Char.ofNat (lead.toNat % 8 * 262144 + low b * 4096 + low c * 64 + low d)) 4

/-- The character that stands for a flaw. -/
def replacement : Char := '\uFFFD'

/-- The text of an octet string of which the first `skip` octets are already read. -/
def decodeLossyFrom : (skip : Nat) → Octets → List Char
  | _, [] => []
  | skip + 1, _ :: rest => decodeLossyFrom skip rest
  | 0, b :: rest =>
    match head b rest with
    | .scalar c width => c :: decodeLossyFrom (width - 1) rest
    | .flaw _ width => replacement :: decodeLossyFrom (width - 1) rest

/-- The text of an octet string, with one replacement character for each flaw. -/
def decodeLossy (s : Octets) : List Char := decodeLossyFrom 0 s

/-- The first flaw of an octet string and its place. -/
structure DecodeError where
  /-- What is wrong. -/
  flaw : Flaw
  /-- The number of octets before the flawed ones. -/
  start : Nat
  /-- The number of flawed octets. -/
  width : Nat
  /-- The first flawed octet. -/
  lead : UInt8
  deriving DecidableEq, Repr

/-- The text of an octet string whose first `skip` octets are already read, when `start` octets stand
before it. -/
def decodeFrom : (start skip : Nat) → Octets → Except DecodeError (List Char)
  | _, _, [] => .ok []
  | start, skip + 1, _ :: rest => decodeFrom (start + 1) skip rest
  | start, 0, b :: rest =>
    match head b rest with
    | .scalar c width => (decodeFrom (start + 1) (width - 1) rest).map (c :: ·)
    | .flaw flaw width => .error ⟨flaw, start, width, b⟩

/-- The text of a well-formed octet string, or its first flaw. -/
def decode (s : Octets) : Except DecodeError (List Char) := decodeFrom 0 0 s

/-- The wording of a flaw. -/
def Flaw.message : Flaw → String
  | .invalidStart => "invalid start byte"
  | .invalidContinuation => "invalid continuation byte"
  | .unexpectedEnd => "unexpected end of data"

/-- Two lower hexadecimal digits. -/
def hexOctet (b : UInt8) : String :=
  String.ofList [Nat.digitChar (b.toNat / 16), Nat.digitChar (b.toNat % 16)]

/-- One flawed octet is named by itself, several by their first and last place. -/
def placeText (start width : Nat) (lead : UInt8) : String :=
  if width ≤ 1 then s!"byte 0x{hexOctet lead} in position {start}"
  else s!"bytes in position {start}-{start + width - 1}"

/-- The wording of a flaw and its place. -/
def DecodeError.message (e : DecodeError) : String :=
  s!"'utf-8' codec can't decode {placeText e.start e.width e.lead}: {e.flaw.message}"

end BuildMend.Text.Utf8
