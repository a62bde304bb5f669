import ShadowCatalog.Text.Blank
import ShadowCatalog.Text.Letters

/-!
# Declared types

The type of a column as the database declares it, such as
`character varying(20)`. The values of some types are read as they are; those
of all others are asked for as text.
-/

namespace ShadowCatalog

open Text

/-- The types whose values are read as they are. -/
def nativeTypes : List String :=
  ["boolean", "smallint", "integer", "bigint", "real", "double precision", "oid", "text",
    "character varying", "character", "name", "json", "jsonb", "uuid",
    "timestamp without time zone", "timestamp with time zone", "date",
    "time without time zone", "bytea"]

/-- A declared type without its modifier: without what stands from the first
    opening to the first closing parenthesis, if they come in that order. -/
def withoutModifier (cs : List Char) : List Char :=
  match splitAt? '(' cs with
  | some (base, inner) =>
    match splitAt? ')' base, splitAt? ')' inner with
    | none, some (_, rest) => base ++ rest
    | _, _ => cs
  | none => cs

/-- Values of this declared type are read as they are. -/
def isNative (dataType : String) : Bool :=
  nativeTypes.contains (String.ofList (trim (withoutModifier dataType.toList)))

end ShadowCatalog
