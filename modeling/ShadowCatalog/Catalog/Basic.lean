import ShadowCatalog.Catalog.IdSet

/-!
# Tables and columns

Two descriptions of the same tables. The *live* catalog is the database's own:
what exists now, under the names it has now. The *shadow* catalog is a record of
what was seen: each tracked table and column has a number of its own that stays
when the thing is renamed, and a table carries its presentation, the order in
which its columns are shown and the column that labels its rows.

A tracked table is tied to its live one by the physical id, which survives a
rename but not a drop; a tracked column by its position in the table.
-/

namespace ShadowCatalog

/-- The number of a tracked table. -/
abbrev TableId := Int

/-- The database's number of a table (32 bits). -/
abbrev PhysicalId := Nat

/-- The place of a column in its table (16 bits). -/
abbrev Position := Int

/-! ## The live catalog -/

/-- A table that exists. -/
structure LiveTable where
  physicalId : PhysicalId
  name : String
  deriving DecidableEq, Repr

/-- A column that exists. -/
structure LiveColumn where
  position : Position
  name : String
  dataType : String
  isNullable : Bool := true
  defaultExpr : Option String := none
  isIdentity : Bool := false
  generatedExpr : Option String := none
  deriving DecidableEq, Repr

/-- The column of a referenced table that is shown in place of a key. -/
structure Label where
  name : String
  dataType : String
  deriving DecidableEq, Repr

/-- A foreign key of one column, with the label of the table it refers to once
    that is known. -/
structure ForeignKey where
  referencingTable : String
  referencingColumn : String
  referencedTable : String
  referencedColumn : String
  label : Option Label := none
  deriving DecidableEq, Repr

/-! ## The shadow catalog -/

/-- A tracked table. -/
structure TrackedTable where
  tableId : TableId
  name : String
  /-- The physical id seen last. -/
  physicalId : PhysicalId
  /-- The columns of the table. -/
  columnIds : IdSet
  /-- The order in which they are shown. It may lag behind `columnIds`. -/
  displayOrder : List ColumnId
  /-- The column chosen to label the rows. -/
  labelColumn : Option String
  deriving DecidableEq, Repr

/-- A table seen for the first time, without columns yet. -/
def TrackedTable.new (tableId : TableId) (name : String) (physicalId : PhysicalId) :
    TrackedTable where
  tableId
  name
  physicalId
  columnIds := .empty
  displayOrder := []
  labelColumn := none

/-- A tracked column. -/
structure TrackedColumn where
  columnId : ColumnId
  tableId : TableId
  position : Position
  name : String
  dataType : String
  deriving DecidableEq, Repr

namespace TrackedColumn

/-- The live column at the same place is not as recorded. -/
def differsFrom (column : TrackedColumn) (live : LiveColumn) : Bool :=
  column.position ≠ live.position || column.name ≠ live.name || column.dataType ≠ live.dataType

/-- The record brought up to date with the live column. -/
def apply (column : TrackedColumn) (live : LiveColumn) : TrackedColumn :=
  { column with position := live.position, name := live.name, dataType := live.dataType }

/-- The record of a live column seen for the first time. -/
def ofLive (columnId : ColumnId) (tableId : TableId) (live : LiveColumn) : TrackedColumn where
  columnId
  tableId
  position := live.position
  name := live.name
  dataType := live.dataType

/-- The column as a label. -/
def label (column : TrackedColumn) : Label := ⟨column.name, column.dataType⟩

end TrackedColumn

/-! ## Labels -/

/-- The names looked for, in order, where no label column is chosen. -/
def labelCandidates : List String :=
  ["name", "title", "label", "display_name", "username", "email"]

/-- The first column of a name. -/
def columnNamed? (columns : List TrackedColumn) (name : String) : Option TrackedColumn :=
  columns.find? fun c => c.name = name

/-- The column that labels the rows of a table with these columns: the chosen
    one if it exists, otherwise the first candidate that does. -/
def labelColumn? (chosen : Option String) (columns : List TrackedColumn) :
    Option TrackedColumn :=
  (chosen.bind (columnNamed? columns)).or (labelCandidates.findSome? (columnNamed? columns))

end ShadowCatalog
