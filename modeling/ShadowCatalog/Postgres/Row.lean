import ShadowCatalog.Postgres.Decoder
import ShadowCatalog.Postgres.Wire
import ShadowCatalog.Text.Integer

/-!
# Result rows

A statement gives rows of cells under columns that have a name and a type. A
cell is read in one of two ways:

* by a `Reading`, where the caller knows what the column must hold: the column
  is looked up by name, its type must be one that the reading accepts, and a
  cell without value is refused unless it is allowed for;
* by the type of the column alone, into JSON (`cellJson?`).
-/

namespace ShadowCatalog.Postgres

open Text

/-- A column of a result. -/
structure ResultColumn where
  name : String
  typeName : String
  deriving DecidableEq, Repr

/-- A cell: its octets, if it has a value. -/
abbrev Cell := Option (List UInt8)

/-- What a statement gives. -/
structure ResultSet where
  columns : List ResultColumn
  rows : List (List Cell)
  /-- The number of rows that the statement touched. -/
  affected : Nat
  deriving DecidableEq, Repr

/-- What can go wrong with a statement. -/
inductive StatementError
  /-- The server refuses it. -/
  | refused
  /-- The connection is lost. -/
  | closed
  /-- It gives more or fewer rows than it may. -/
  | rowCount
  /-- A column, counted from 0, holds something else than it should. -/
  | undecodable (column : Nat)
  /-- A column is not there. -/
  | noColumn (name : String)
  deriving DecidableEq, Repr

/-- The words for what went wrong. -/
def StatementError.message : StatementError → String
  | .refused => "db error"
  | .closed => "connection closed"
  | .rowCount => "query returned an unexpected number of rows"
  | .undecodable column => "error deserializing column " ++ toString column
  | .noColumn name => "invalid column " ++ String.singleton '\x60' ++ name ++
      String.singleton '\x60'

/-! ## Columns of known content -/

/-- How a value of known content is read. -/
structure Reading (α : Type) where
  /-- The types that hold such values. -/
  types : List String
  ofOctets? : List UInt8 → Option α

namespace Reading

/-- The types that hold text. -/
def textTypes : List String := ["varchar", "text", "bpchar", "name", "unknown"]

/-- Text. -/
def text : Reading String := ⟨textTypes, Wire.text?⟩

/-- A truth value. -/
def bool : Reading Bool := ⟨["bool"], Wire.bool?⟩

/-- An integer of 16 bits. -/
def int2 : Reading Int := ⟨["int2"], Wire.signed? 2⟩

/-- An integer of 64 bits. -/
def int8 : Reading Int := ⟨["int8"], Wire.signed? 8⟩

/-- An object number, of 32 bits. -/
def oid : Reading Nat := ⟨["oid"], Wire.unsigned? 4⟩

/-- A list of integers of 64 bits, in one form of JSON. -/
def integers? (json? : List UInt8 → Option Json) (octets : List UInt8) : Option (List Int) :=
  ((json? octets).bind Json.integers?).filter fun ns => ns.all (fitsSigned 64)

end Reading

/-- A row with its columns. -/
structure Row where
  columns : List ResultColumn
  cells : List Cell
  deriving DecidableEq, Repr

namespace Row

variable {α : Type} (row : Row)

/-- The place of the column of a name: exactly that name, or else a name that
    differs only in the case of its letters. -/
def place? (name : String) : Option Nat :=
  (row.columns.findIdx? (·.name = name)).or
    (row.columns.findIdx? fun c => sameLetters c.name.toList name.toList)

/-- A cell at a place whose column has one of these types. -/
def cellAt (types : List String) (place : Nat) : Except StatementError Cell :=
  match row.columns[place]?, row.cells[place]? with
  | some column, some cell =>
    if types.contains column.typeName then .ok cell else .error (.undecodable place)
  | _, _ => .error (.noColumn (toString place))

/-- The value at a place, if it has one. -/
def optionalAt (reading : Reading α) (place : Nat) : Except StatementError (Option α) :=
  match row.cellAt reading.types place with
  | .error e => .error e
  | .ok none => .ok none
  | .ok (some octets) =>
    match reading.ofOctets? octets with
    | some value => .ok (some value)
    | none => .error (.undecodable place)

/-- The value at a place. -/
def getAt (reading : Reading α) (place : Nat) : Except StatementError α :=
  match row.optionalAt reading place with
  | .error e => .error e
  | .ok (some value) => .ok value
  | .ok none => .error (.undecodable place)

/-- The value of a column, if it has one. -/
def optional (reading : Reading α) (name : String) : Except StatementError (Option α) :=
  match row.place? name with
  | some place => row.optionalAt reading place
  | none => .error (.noColumn name)

/-- The value of a column. -/
def get (reading : Reading α) (name : String) : Except StatementError α :=
  match row.place? name with
  | some place => row.getAt reading place
  | none => .error (.noColumn name)

/-- The list of integers in a column, in either form of JSON. -/
def getIntegers (name : String) : Except StatementError (List Int) :=
  match row.place? name with
  | none => .error (.noColumn name)
  | some place =>
    match row.columns[place]? with
    | some column =>
      row.getAt
        (if column.typeName = "jsonb" then ⟨["jsonb"], Reading.integers? Wire.jsonb?⟩
          else ⟨["json"], Reading.integers? Wire.json?⟩) place
    | none => .error (.noColumn name)

end Row

/-- The rows of a result. -/
def ResultSet.toRows (result : ResultSet) : List Row := result.rows.map (Row.mk result.columns)

/-! ## Columns of any content -/

/-- A double in JSON. What is not finite has no number and is written out. -/
def doubleJson (x : Binary64) : Json :=
  if x.isFinite then .double x
  else if x.magnitude = Binary64.infinity then .string (if x.isNegative then "-inf" else "inf")
  else .string "NaN"

/-- A value in JSON, read as the decoder of its type says. -/
def Decoder.value? (typeName : String) (octets : List UInt8) : Decoder → Option Json
  | .bool => (Wire.bool? octets).map .bool
  | .int2 => (Wire.signed? 2 octets).map .int
  | .int4 => (Wire.signed? 4 octets).map .int
  | .int8 => (Wire.signed? 8 octets).map .int
  | .float4 => (Wire.single? octets).map doubleJson
  | .float8 => (Wire.double? octets).map doubleJson
  | .oid => (Wire.unsigned? 4 octets).map .nat
  | .text => (Wire.text? octets).map .string
  | .json => if typeName = "jsonb" then Wire.jsonb? octets else Wire.json? octets
  | .uuid => (Wire.uuid? octets).map .string
  | .timestamp => (Wire.timestamp? octets).map fun t => .string t.text
  | .timestampTz => (Wire.timestamp? octets).map fun t => .string t.text
  | .date => (Wire.date? octets).map fun d => .string d.text
  | .time => (Wire.time? octets).map fun t => .string t.text
  | .bytea => some (.string (Utf8.decodeLossy octets))

/-- A cell in JSON. A type that is read as text must hold text, even where there
    is no value. -/
def cellJson? (typeName : String) (cell : Cell) : Option Json :=
  let decoder := Decoder.ofType typeName
  if decoder = .text ∧ ¬Reading.textTypes.contains typeName then none
  else
    match cell with
    | none => some .null
    | some octets => decoder.value? typeName octets

/-- A cell in JSON, with the name of its column. -/
def namedCell? (column : ResultColumn) (cell : Cell) : Option (String × Json) :=
  (cellJson? column.typeName cell).map fun value => (column.name, value)

/-- The cells of a row in JSON, under the names of their columns. A name that is
    repeated keeps its first place and takes its last value. -/
def rowJson? (columns : List ResultColumn) (cells : List Cell) : Option (List (String × Json)) :=
  ((columns.zip cells).mapM fun (column, cell) => namedCell? column cell).map Json.ofPairs

/-- The rows of a result in JSON. -/
def ResultSet.rowsJson? (result : ResultSet) : Option (List (List (String × Json))) :=
  result.rows.mapM (rowJson? result.columns)

end ShadowCatalog.Postgres
