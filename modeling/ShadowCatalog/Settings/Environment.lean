import ShadowCatalog.Text.Blank
import ShadowCatalog.Text.Integer
import ShadowCatalog.Text.Utf8

/-!
# The environment

The variables that a program finds when it starts. Their values are octets; one
that is not UTF-8 counts as not set.
-/

namespace ShadowCatalog

/-- The text of a variable, if it has one. -/
abbrev Environment := String → Option String

namespace Environment

open Text

/-- The environment of variables with these octets. -/
def ofOctets (values : List (String × List UInt8)) : Environment := fun name =>
  (values.find? (·.1 = name)).bind fun (_, octets) =>
    (Utf8.decode? octets).map String.ofList

variable (environment : Environment)

/-- A natural number of `bits` bits, without the blanks around it. -/
def number? (bits : Nat) (name : String) : Option Nat :=
  (environment name).bind fun text => unsigned? bits (trim text.toList)

end Environment

end ShadowCatalog
