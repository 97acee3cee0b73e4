import BuildMend.Number.Numeral
import BuildMend.Text.CodePoint

/-!
Values of the data format JSON.

* `Json`: a value; its strings are code points and need not be texts; the members of an object keep
  their order and have different names.
* `Json.get?`: the member of an object that has a name.
* `Json.insertMember`: a member takes the place of an earlier one of the same name.
* `Json.isEmptyValue`: the values that stand for nothing: null, false, zero and what has no parts.
* `Json.text`: the code points that stand for a value within a text; `Json.display` shows them in a
  message.
-/

namespace BuildMend

open Number Text

/-- A value of the data format JSON. -/
inductive Json where
  | null
  | bool (b : Bool)
  | number (n : Amount)
  | string (s : List CodePoint)
  | array (elements : List Json)
  | object (members : List (List CodePoint × Json))

namespace Json

/-- The value that is a string. -/
def ofString (s : String) : Json := .string (CodePoint.ofString s)

/-- The object with some members. -/
def ofMembers (members : List (String × Json)) : Json :=
  .object (members.map fun (name, value) => (CodePoint.ofString name, value))

/-- The member with a name, in a list of members. -/
def lookup (name : List CodePoint) : List (List CodePoint × Json) → Option Json
  | [] => none
  | (key, value) :: rest => if key == name then some value else lookup name rest

/-- The member of an object with a name; what is no object has no members. -/
def get? (name : String) : Json → Option Json
  | .object members => lookup (CodePoint.ofString name) members
  | _ => none

/-- The members with one more; it takes the place of an earlier member of the same name. -/
def insertMember (name : List CodePoint) (value : Json) :
    List (List CodePoint × Json) → List (List CodePoint × Json)
  | [] => [(name, value)]
  | (key, old) :: rest =>
    if key == name then (key, value) :: rest else (key, old) :: insertMember name value rest

/-- The values that stand for nothing. -/
def isEmptyValue : Json → Bool
  | .null => true
  | .bool b => !b
  | .number (.whole n) => n == 0
  | .number (.fraction (.finite _ m _)) => m == 0
  | .number (.fraction _) => false
  | .string s => s.isEmpty
  | .array elements => elements.isEmpty
  | .object members => members.isEmpty

/-- The word for the kind of a value in a message. -/
def kind : Json → String
  | .null => "NoneType"
  | .bool _ => "bool"
  | .number (.whole _) => "int"
  | .number (.fraction _) => "float"
  | .string _ => "str"
  | .array _ => "list"
  | .object _ => "dict"

mutual

/-- The text of a value within a larger one: strings are quoted. -/
def displayPart : Json → String
  | .null => "None"
  | .bool true => "True"
  | .bool false => "False"
  | .number n => n.text
  | .string s => CodePoint.quoted s
  | .array elements => "[" ++ displayElements elements ++ "]"
  | .object members => "\x7b" ++ displayMembers members ++ "\x7d"

/-- The texts of elements, between commas. -/
def displayElements : List Json → String
  | [] => ""
  | [v] => displayPart v
  | v :: rest => displayPart v ++ ", " ++ displayElements rest

/-- The texts of members, between commas. -/
def displayMembers : List (List CodePoint × Json) → String
  | [] => ""
  | [(k, v)] => CodePoint.quoted k ++ ": " ++ displayPart v
  | (k, v) :: rest => CodePoint.quoted k ++ ": " ++ displayPart v ++ ", " ++ displayMembers rest

end

/-- The code points that stand for a value within a text: a string stands for itself. -/
def text : Json → List CodePoint
  | .string s => s
  | v => CodePoint.ofString (displayPart v)

/-- The text of a value in a message. -/
def display (v : Json) : String := CodePoint.shown v.text

end Json

end BuildMend
