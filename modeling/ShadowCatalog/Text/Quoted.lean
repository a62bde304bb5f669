import ShadowCatalog.Text.Visible

/-!
# Quoted text

Text between double quotes, in which every character is seen: a quote and a
backslash have a backslash in front, the common controls have a letter, and
every other character that is not visible is written by its number, in
hexadecimal between braces.
-/

namespace ShadowCatalog.Text

/-- How a character is written between quotes. -/
def quotedChar (c : Char) : List Char :=
  if c = '"' then ['\\', '"']
  else if c = '\\' then ['\\', '\\']
  else if c = '\n' then ['\\', 'n']
  else if c = '\t' then ['\\', 't']
  else if c = '\r' then ['\\', 'r']
  else if c.toNat = 0 then ['\\', '0']
  else if isVisible c then [c]
  else ['\\', 'u', '\x7b'] ++ Nat.toDigits 16 c.toNat ++ ['\x7d']

/-- A text between double quotes. -/
def quoted (s : String) : String :=
  String.ofList ('"' :: s.toList.flatMap quotedChar ++ ['"'])

end ShadowCatalog.Text
