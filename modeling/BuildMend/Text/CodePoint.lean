import BuildMend.Text.Quoted

/-!
Code points: the units of a text that need not be well formed.

* `CodePoint`: a character, or a half of a surrogate pair that stands alone.
* `CharLike`: the kinds of unit that can be looked at as characters; half a pair looks like the
  replacement character.
* `CodePoint.ofString`: the code points of a text; `CodePoint.toChars?` reads them back, and stops at
  halves, which no text can hold; `toChars?_map_char` says that only halves stop it.
* `CodePoint.shown`, `CodePoint.quoted`: code points in a message, where a half is written by its
  number.
-/

namespace BuildMend.Text

/-- A character, or a half of a surrogate pair by its place among the halves. -/
inductive CodePoint where
  | char (c : Char)
  | half (place : Fin 2048)
  deriving DecidableEq, Repr

/-! ### Units of text -/

/-- A kind of unit that can be looked at as a character, and of which every character is one. -/
class CharLike (α : Type) where
  /-- The unit of a character. -/
  ofChar : Char → α
  /-- The character that a unit looks like. -/
  look : α → Char
  look_ofChar : ∀ c, look (ofChar c) = c

instance : CharLike Char := ⟨id, id, fun _ => rfl⟩

/-- Characters look like themselves. -/
@[simp] theorem CharLike.map_look (s : List Char) : s.map CharLike.look = s := List.map_id s

namespace CodePoint

/-- The character that stands for what is none. -/
def replacement : Char := '\uFFFD'

/-- The character that a code point looks like. -/
def look : CodePoint → Char
  | .char c => c
  | .half _ => replacement

instance : CharLike CodePoint := ⟨.char, look, fun _ => rfl⟩

/-! ### Numbers -/

/-- The number of the first half. -/
def firstHalf : Nat := 0xD800

/-- The first half of a pair. -/
def isHighHalf (n : Nat) : Bool := firstHalf ≤ n && n < 0xDC00

/-- The second half of a pair. -/
def isLowHalf (n : Nat) : Bool := 0xDC00 ≤ n && n < 0xE000

/-- The number of a code point. -/
def value : CodePoint → Nat
  | .char c => c.toNat
  | .half place => firstHalf + place.val

/-- The code point with a number. -/
def ofValue (n : Nat) : CodePoint :=
  if isHighHalf n || isLowHalf n then .half (Fin.ofNat 2048 (n - firstHalf)) else .char (Char.ofNat n)

/-- The character of a pair of halves. -/
def ofPair (high low : Nat) : CodePoint :=
  .char (Char.ofNat (0x10000 + (high - firstHalf) * 1024 + (low - 0xDC00)))

/-! ### Texts -/

/-- The code points of a string. -/
def ofString (s : String) : List CodePoint := s.toList.map .char

/-- Halves that keep code points from being a text: where they stand, how many they are, and the
first of them. -/
structure LoneHalves where
  /-- The number of code points before them. -/
  start : Nat
  /-- The number of halves that stand together. -/
  count : Nat
  first : CodePoint
  deriving DecidableEq, Repr

/-- Whether a code point is half of a pair. -/
def isHalf : CodePoint → Bool
  | .char _ => false
  | .half _ => true

/-- The characters of code points before which `start` others stand, or the first halves. -/
def toCharsFrom? : (start : Nat) → List CodePoint → Except LoneHalves (List Char)
  | _, [] => .ok []
  | start, .char c :: rest => (toCharsFrom? (start + 1) rest).map (c :: ·)
  | start, .half place :: rest =>
    .error ⟨start, (rest.takeWhile isHalf).length + 1, .half place⟩

/-- The characters of code points, or the first halves among them. -/
def toChars? (s : List CodePoint) : Except LoneHalves (List Char) := toCharsFrom? 0 s

/-- The string of code points, unless there are halves among them. -/
def toString? (s : List CodePoint) : Option String :=
  (toChars? s).toOption.map String.ofList

/-- Characters are read back from their code points. -/
theorem toCharsFrom?_map_char (start : Nat) (s : List Char) :
    toCharsFrom? start (s.map .char) = .ok s := by
  induction s generalizing start with
  | nil => rfl
  | cons c s ih => rw [List.map_cons, toCharsFrom?, ih]; rfl

/-- Characters are read back from their code points. -/
theorem toChars?_map_char (s : List Char) : toChars? (s.map .char) = .ok s :=
  toCharsFrom?_map_char 0 s

/-! ### In messages -/

/-- A half, written by its number. -/
def halfEscape (place : Fin 2048) : List Char :=
  '\\' :: 'u' :: hexDigits 4 (firstHalf + place.val)

/-- A code point within a message: a character is itself. -/
def shownPoint : CodePoint → List Char
  | .char c => [c]
  | .half place => halfEscape place

/-- Code points within a message. -/
def shown (s : List CodePoint) : String := String.ofList (s.flatMap shownPoint)

/-- A code point between quotes of a kind. -/
def quotedPoint (q : Char) : CodePoint → List Char
  | .char c => quotedChar q c
  | .half place => halfEscape place

/-- Code points between quotes. -/
def quoted (s : List CodePoint) : String :=
  let q := quoteFor (s.map look)
  String.ofList (q :: s.flatMap (quotedPoint q) ++ [q])

/-- The wording for halves that cannot be written in UTF-8. -/
def LoneHalves.message (h : LoneHalves) : String :=
  let place :=
    if h.count ≤ 1 then s!"character {quoted [h.first]} in position {h.start}"
    else s!"characters in position {h.start}-{h.start + h.count - 1}"
  s!"'utf-8' codec can't encode {place}: surrogates not allowed"

end CodePoint

end BuildMend.Text
