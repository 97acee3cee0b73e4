import BuildMend.Text.CodePoint
import BuildMend.Text.Utf8

/-!
The encodings of a document whose encoding is not told.

* `Encoding`: UTF-8, and UTF-16 and UTF-32 in either order of octets.
* `Encoding.detect`: the encoding of a document, from a mark at its front or else from the zeros among
  its first octets, which stand for ASCII characters.
* `Encoding.decode`: the code points of an octet string, or its first flaw.
* `Encoding.decodeDocument`: the code points of a document, without the mark.

Halves of surrogate pairs that stand alone are read as such; in UTF-16 two that make a pair are a
character, in the other encodings they stay apart.
-/

namespace BuildMend.Text

open Utf8 (Octets)

/-- Which octet of a unit comes first. -/
inductive OctetOrder where
  | little
  | big
  deriving DecidableEq, Repr

/-- How code points are written as octets. -/
inductive Encoding where
  | utf8
  | utf16 (order : OctetOrder)
  | utf32 (order : OctetOrder)
  deriving DecidableEq, Repr

namespace Encoding

/-- The end of the name of an encoding with an order of octets. -/
def orderName : OctetOrder → String
  | .little => "le"
  | .big => "be"

/-- The name of an encoding. -/
def name : Encoding → String
  | .utf8 => "utf-8"
  | .utf16 order => "utf-16-" ++ orderName order
  | .utf32 order => "utf-32-" ++ orderName order

/-! ### Flaws -/

/-- What can be wrong in an encoding with units of more than one octet. -/
inductive UnitFlaw where
  /-- The end cuts off a unit. -/
  | truncated
  /-- A unit is beyond the last code point. -/
  | outOfRange
  deriving DecidableEq, Repr

/-- The wording of a flaw. -/
def UnitFlaw.message : UnitFlaw → String
  | .truncated => "truncated data"
  | .outOfRange => "code point not in range(0x110000)"

/-- The first flaw of an octet string and its place. -/
inductive DecodeError where
  | octets (e : Utf8.DecodeError)
  /-- A flaw of `width` octets, the first of which is `lead`, with `start` octets before it. -/
  | units (encoding : Encoding) (flaw : UnitFlaw) (start width : Nat) (lead : UInt8)
  deriving DecidableEq, Repr

/-- The wording of a flaw and its place. -/
def DecodeError.message : DecodeError → String
  | .octets e => e.message
  | .units encoding flaw start width lead =>
    s!"'{encoding.name}' codec can't decode {Utf8.placeText start width lead}: {flaw.message}"

/-! ### Octets as units -/

/-- The half of a pair that stands at the front, if three octets write one as UTF-8 writes characters
of its size. -/
def encodedHalf? : Octets → Option CodePoint
  | a :: b :: c :: _ =>
    if a == 0xED && Utf8.isContinuation b && 0xA0 ≤ b && Utf8.isContinuation c then
      some (.ofValue (0xD000 + Utf8.low b * 64 + Utf8.low c))
    else none
  | _ => none

/-- The code points of an octet string in UTF-8 whose first `skip` octets are already read, when
`start` octets stand before it. -/
def decodeOctetsFrom : (start skip : Nat) → Octets → Except DecodeError (List CodePoint)
  | _, _, [] => .ok []
  | start, skip + 1, _ :: rest => decodeOctetsFrom (start + 1) skip rest
  | start, 0, b :: rest =>
    match Utf8.head b rest with
    | .scalar c width =>
      (decodeOctetsFrom (start + 1) (width - 1) rest).map (CodePoint.char c :: ·)
    | .flaw flaw width =>
      match encodedHalf? (b :: rest) with
      | some half => (decodeOctetsFrom (start + 1) 2 rest).map (half :: ·)
      | none => .error (.octets ⟨flaw, start, width, b⟩)

/-! ### Larger units -/

/-- The number that octets write in an order. -/
def unitValue : OctetOrder → List UInt8 → Nat
  | .big, octets => octets.foldl (fun n b => 256 * n + b.toNat) 0
  | .little, octets => octets.foldr (fun b n => 256 * n + b.toNat) 0

/-- The units of two octets, when `start` octets stand before. -/
def pairUnits (order : OctetOrder) : (start : Nat) → Octets → Except DecodeError (List Nat)
  | _, [] => .ok []
  | start, [a] => .error (.units (.utf16 order) .truncated start 1 a)
  | start, a :: b :: rest =>
    (pairUnits order (start + 2) rest).map (unitValue order [a, b] :: ·)

/-- The code points of units of two octets: a first and a second half in a row are one character. -/
def joinHalves : List Nat → List CodePoint
  | [] => []
  | [n] => [.ofValue n]
  | n :: m :: rest =>
    if CodePoint.isHighHalf n && CodePoint.isLowHalf m then .ofPair n m :: joinHalves rest
    else .ofValue n :: joinHalves (m :: rest)

/-- The code points of units of four octets, when `start` octets stand before. -/
def quadUnits (order : OctetOrder) :
    (start : Nat) → Octets → Except DecodeError (List CodePoint)
  | _, [] => .ok []
  | start, a :: b :: c :: d :: rest =>
    let n := unitValue order [a, b, c, d]
    if 0x110000 ≤ n then .error (.units (.utf32 order) .outOfRange start 4 a)
    else (quadUnits order (start + 4) rest).map (CodePoint.ofValue n :: ·)
  | start, a :: rest => .error (.units (.utf32 order) .truncated start (rest.length + 1) a)

/-- The code points of an octet string, when `start` octets stand before it. -/
def decode (encoding : Encoding) (start : Nat) (s : Octets) :
    Except DecodeError (List CodePoint) :=
  match encoding with
  | .utf8 => decodeOctetsFrom start 0 s
  | .utf16 order => (pairUnits order start s).map joinHalves
  | .utf32 order => quadUnits order start s

/-! ### Documents -/

/-- The encoding of a document without a mark: its first two characters are of ASCII, so zeros show
the size of its units and their order. -/
def ofZeros : Octets → Encoding
  | [a, b] => if a == 0 then .utf16 .big else if b == 0 then .utf16 .little else .utf8
  | a :: b :: c :: d :: _ =>
    if a == 0 then if b == 0 then .utf32 .big else .utf16 .big
    else if b == 0 then if c == 0 && d == 0 then .utf32 .little else .utf16 .little
    else .utf8
  | _ => .utf8

/-- The marks that tell an encoding; one that begins with another comes before it. -/
def marks : List (Octets × Encoding) :=
  [([0x00, 0x00, 0xFE, 0xFF], .utf32 .big), ([0xFF, 0xFE, 0x00, 0x00], .utf32 .little),
    ([0xFE, 0xFF], .utf16 .big), ([0xFF, 0xFE], .utf16 .little), ([0xEF, 0xBB, 0xBF], .utf8)]

/-- The encoding of a document and the number of octets in its mark. -/
def detect (document : Octets) : Encoding × Nat :=
  match marks.find? fun (mark, _) => mark.isPrefixOf document with
  | some (mark, encoding) => (encoding, mark.length)
  | none => (ofZeros document, 0)

/-- The code points of a document.  Flaws are counted from its front, but in UTF-8 from the end of
the mark. -/
def decodeDocument (document : Octets) : Except DecodeError (List CodePoint) :=
  let (encoding, mark) := detect document
  decode encoding (if encoding == .utf8 then 0 else mark) (document.drop mark)

end Encoding

end BuildMend.Text
