import ShadowCatalog.Number.Binary64

/-!
# JSON values

A number is an integer or a double; an object lists its fields in order.
`Json.insert` is how a field is set: a name keeps its first place and takes
its last value.
-/

namespace ShadowCatalog

/-- A JSON value. -/
inductive Json
  | null
  | bool (value : Bool)
  | int (value : Int)
  | double (value : Binary64)
  | string (value : String)
  | array (items : List Json)
  | object (fields : List (String × Json))

namespace Json

/-- The fields with `name` set to `value`. -/
def insert (name : String) (value : Json) : List (String × Json) → List (String × Json)
  | [] => [(name, value)]
  | (other, old) :: fields =>
    if other = name then (name, value) :: fields
    else (other, old) :: insert name value fields

/-- The fields set one after the other. -/
def ofPairs (pairs : List (String × Json)) : List (String × Json) :=
  pairs.foldl (fun fields (name, value) => insert name value fields) []

/-- The value of a field. -/
def field? (name : String) : Json → Option Json
  | .object fields => (fields.find? (·.1 = name)).map (·.2)
  | _ => none

/-- A list of values. -/
def ofList {α : Type} (encode : α → Json) (items : List α) : Json :=
  .array (items.map encode)

/-- A value that may be missing. -/
def ofOption {α : Type} (encode : α → Json) : Option α → Json
  | some a => encode a
  | none => .null

/-- A natural number. -/
def nat (n : Nat) : Json := .int n

end Json

end ShadowCatalog
