import ShadowCatalog.Json.Basic

/-!
# Writing JSON

Two layouts of the same text: `compact` has no blanks, `pretty` has a line for
each item and field, indented by two spaces. In a string, a quote, a backslash
and the controls are escaped, and everything else stands for itself.
-/

namespace ShadowCatalog.Json

/-- The digits of a number below `0x10000`, four in hexadecimal. -/
def hexDigits4 (n : Nat) : List Char :=
  let digits := Nat.toDigits 16 n
  List.replicate (4 - digits.length) '0' ++ digits

/-- How a character is written in a string. -/
def escapedChar (c : Char) : List Char :=
  if c = '"' then ['\\', '"']
  else if c = '\\' then ['\\', '\\']
  else if c = '\n' then ['\\', 'n']
  else if c = '\r' then ['\\', 'r']
  else if c = '\t' then ['\\', 't']
  else if c.toNat = 0x08 then ['\\', 'b']
  else if c.toNat = 0x0C then ['\\', 'f']
  else if c.toNat < 0x20 then ['\\', 'u'] ++ hexDigits4 c.toNat
  else [c]

/-- A string between its quotes. -/
def writtenString (s : String) : List Char :=
  '"' :: s.toList.flatMap escapedChar ++ ['"']

/-- A value that holds no other value. A double that is not finite has no text
    of its own and is written as `null`. -/
def writtenScalar : Json → List Char
  | .null => ['n', 'u', 'l', 'l']
  | .bool true => ['t', 'r', 'u', 'e']
  | .bool false => ['f', 'a', 'l', 's', 'e']
  | .int n => (toString n).toList
  | .double x => if x.isFinite then x.text else ['n', 'u', 'l', 'l']
  | .string s => writtenString s
  | .array _ => ['[', ']']
  | .object _ => ['\x7b', '\x7d']

mutual

/-- The text of a value, without blanks. -/
def written : Json → List Char
  | .array items => '[' :: writtenItems items ++ [']']
  | .object fields => '\x7b' :: writtenFields fields ++ ['\x7d']
  | scalar => writtenScalar scalar

/-- The items of an array, with commas between them. -/
def writtenItems : List Json → List Char
  | [] => []
  | [item] => written item
  | item :: items => written item ++ ',' :: writtenItems items

/-- The fields of an object, with commas between them. -/
def writtenFields : List (String × Json) → List Char
  | [] => []
  | [(name, value)] => writtenString name ++ ':' :: written value
  | (name, value) :: fields =>
    writtenString name ++ ':' :: written value ++ ',' :: writtenFields fields

end

/-- The text of a value in one line. -/
def compact (j : Json) : String := String.ofList (written j)

/-- The start of a line at a depth. -/
def lineAt (depth : Nat) : List Char := '\n' :: List.replicate (2 * depth) ' '

mutual

/-- The text of a value that stands at a depth. -/
def spread (depth : Nat) : Json → List Char
  | .array [] => ['[', ']']
  | .array (item :: items) =>
    '[' :: spreadItems (depth + 1) (item :: items) ++ lineAt depth ++ [']']
  | .object [] => ['\x7b', '\x7d']
  | .object (field :: fields) =>
    '\x7b' :: spreadFields (depth + 1) (field :: fields) ++ lineAt depth ++ ['\x7d']
  | scalar => writtenScalar scalar

/-- The items of an array, each on its line. -/
def spreadItems (depth : Nat) : List Json → List Char
  | [] => []
  | [item] => lineAt depth ++ spread depth item
  | item :: items => lineAt depth ++ spread depth item ++ ',' :: spreadItems depth items

/-- The fields of an object, each on its line. -/
def spreadFields (depth : Nat) : List (String × Json) → List Char
  | [] => []
  | [(name, value)] => lineAt depth ++ writtenString name ++ [':', ' '] ++ spread depth value
  | (name, value) :: fields =>
    lineAt depth ++ writtenString name ++ [':', ' '] ++ spread depth value ++
      ',' :: spreadFields depth fields

end

/-- The text of a value over several lines. -/
def pretty (j : Json) : String := String.ofList (spread 0 j)

end ShadowCatalog.Json
