/-!
# Statement text

A statement is a row of *fragments*: fixed words of the language, and between
them the names, numbers and parameters of this statement. A name is written
between double quotes with every quote inside it doubled, so that no name can
end before its closing quote. Values never appear: they are bound to numbered
parameters.
-/

namespace ShadowCatalog

/-- A name as it stands between its quotes. -/
def doubleQuotes : List Char → List Char
  | [] => []
  | c :: cs => if c = '"' then '"' :: '"' :: doubleQuotes cs else c :: doubleQuotes cs

/-- A name between double quotes. -/
def quotedName (name : String) : List Char :=
  '"' :: (doubleQuotes name.toList ++ ['"'])

/-- A piece of a statement. -/
inductive Fragment
  /-- Fixed text. -/
  | fixed (text : String)
  /-- The name of a table, column or label. -/
  | name (name : String)
  /-- The place of a bound value. -/
  | parameter (index : Nat)
  /-- The empty text. -/
  | emptyText
  /-- A number. -/
  | number (value : Int)
  deriving DecidableEq, Repr

/-- The text of a fragment. -/
def Fragment.chars : Fragment → List Char
  | .fixed text => text.toList
  | .name n => quotedName n
  | .parameter index => '$' :: (toString index).toList
  | .emptyText => ['\'', '\'']
  | .number value => (toString value).toList

/-- A statement, or a part of one. -/
abbrev Sql := List Fragment

namespace Sql

/-- The text of a statement. -/
def text (sql : Sql) : String := String.ofList (sql.flatMap Fragment.chars)

/-- Parts with the same fixed text between any two. -/
def separated (separator : String) : List Sql → Sql
  | [] => []
  | [part] => part
  | part :: parts => part ++ .fixed separator :: separated separator parts

end Sql

end ShadowCatalog
