import BuildMend.Json.Value

/-!
Writing JSON.

* `Json.render`: the text of a value on one line, in ASCII; other characters are written by code
  escapes, those beyond the first plane by a pair.
-/

namespace BuildMend.Json

open Number Text

/-- The code escape of a code unit. -/
def unitEscape (n : Nat) : List Char := '\\' :: 'u' :: hexDigits 4 n

/-- A character within a string. -/
def renderChar (c : Char) : List Char :=
  let n := c.toNat
  if c == '"' then ['\\', '"']
  else if c == '\\' then ['\\', '\\']
  else if c == '\n' then ['\\', 'n']
  else if c == '\r' then ['\\', 'r']
  else if c == '\t' then ['\\', 't']
  else if 32 ≤ n && n < 127 then [c]
  else if n < 0x10000 then unitEscape n
  else unitEscape (0xD800 + (n - 0x10000) / 1024) ++ unitEscape (0xDC00 + (n - 0x10000) % 1024)

/-- A code point within a string. -/
def renderPoint : CodePoint → List Char
  | .char c => renderChar c
  | .half place => unitEscape (CodePoint.firstHalf + place.val)

/-- A string between its quotes. -/
def renderString (s : List CodePoint) : String :=
  String.ofList ('"' :: s.flatMap renderPoint ++ ['"'])

/-- A number; those without digits have the names that the reader knows. -/
def renderNumber : Amount → String
  | .fraction .nan => "NaN"
  | .fraction (.infinite false) => "Infinity"
  | .fraction (.infinite true) => "-Infinity"
  | n => n.text

mutual

/-- The text of a value. -/
def render : Json → String
  | .null => "null"
  | .bool true => "true"
  | .bool false => "false"
  | .number n => renderNumber n
  | .string s => renderString s
  | .array elements => "[" ++ renderElements elements ++ "]"
  | .object members => "\x7b" ++ renderMembers members ++ "\x7d"

/-- The texts of elements, between commas. -/
def renderElements : List Json → String
  | [] => ""
  | [v] => render v
  | v :: rest => render v ++ ", " ++ renderElements rest

/-- The texts of members, between commas. -/
def renderMembers : List (List CodePoint × Json) → String
  | [] => ""
  | [(k, v)] => renderString k ++ ": " ++ render v
  | (k, v) :: rest => renderString k ++ ": " ++ render v ++ ", " ++ renderMembers rest

end

end BuildMend.Json
