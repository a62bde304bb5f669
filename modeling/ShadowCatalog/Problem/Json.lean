import ShadowCatalog.Json.Printer
import ShadowCatalog.Json.Reader
import ShadowCatalog.Problem.Basic

/-!
# Problems in JSON

A problem is written as an object of its code, its message and, if it has any,
its details. Reading is more lenient than writing:

* the three fields may also stand in an array, in this order;
* the fields of an object may come in any order, each once, and fields of other
  names are passed over without being read;
* details that are `null` are no details;
* the code may also be written as an object whose one field, of that name, is
  `null`.
-/

namespace ShadowCatalog.Problem

open Json

/-- A problem as a value of JSON. -/
def toJson (p : Problem) : Json :=
  .object (("code", .string p.code.tag) :: ("message", .string p.message) ::
    p.details.toList.map fun details => ("details", details))

/-- The text of a problem in JSON. -/
def written (p : Problem) : String := p.toJson.compact

/-! ## Reading -/

/-- A code. -/
def code? : Tree → Option ProblemCode
  | .string pieces => (text? pieces).bind ProblemCode.ofTag?
  | .object [(name, .null)] => (text? name).bind ProblemCode.ofTag?
  | _ => none

/-- A message. -/
def message? : Tree → Option String
  | .string pieces => text? pieces
  | _ => none

/-- Details, which lie one level deep in a problem. -/
def details? : Tree → Option (Option Json)
  | .null => some none
  | tree => (tree.read? (maxDepth - 1)).map some

/-- The names of the fields of an object. -/
def named? : List (List Piece × Tree) → Option (List (String × Tree))
  | [] => some []
  | (name, value) :: fields => do
    let name ← text? name
    let others ← named? fields
    return (name, value) :: others

/-- The values of all fields of a name. -/
def valuesOf (name : String) (fields : List (String × Tree)) : List Tree :=
  (fields.filter (·.1 = name)).map (·.2)

/-- The problem that the fields of an object make. -/
def ofFields? (fields : List (String × Tree)) : Option Problem :=
  match valuesOf "code" fields, valuesOf "message" fields with
  | [code], [message] => do
    let code ← code? code
    let message ← message? message
    match valuesOf "details" fields with
    | [] => return ⟨code, message, none⟩
    | [details] => return ⟨code, message, ← details? details⟩
    | _ => none
  | _, _ => none

/-- The problem that a tree of JSON makes. -/
def ofTree? : Tree → Option Problem
  | .object fields => (named? fields).bind ofFields?
  | .array [code, message, details] =>
    return ⟨← code? code, ← message? message, ← details? details⟩
  | _ => none

/-- The problem that a text of JSON gives. -/
def parse? (text : String) : Option Problem := (Tree.parse? text.toList).bind ofTree?

/-- A problem that cannot be read. -/
def unreadable : Problem := internalError "JSON serialization failed"

end ShadowCatalog.Problem
