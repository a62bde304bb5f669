import ShadowCatalog.Catalog.Call

/-!
# A live catalog in memory

A live catalog held as a value, with the changes that the statements of a
database make to it. A statement about a table that does not exist changes
nothing, apart from the foreign keys, which go by name. Listings can be made to
fail.
-/

namespace ShadowCatalog

/-- A live table and its columns. -/
structure LiveEntry where
  table : LiveTable
  /-- The columns, in the order in which they were added. -/
  columns : List LiveColumn
  deriving DecidableEq, Repr

/-- A live catalog. -/
structure LiveCatalog where
  /-- The tables, by ascending physical id. -/
  entries : List LiveEntry := []
  foreignKeys : List ForeignKey := []
  /-- The tables whose columns cannot be listed. -/
  failingTables : List String := []
  /-- The tables cannot be listed. -/
  listingFails : Bool := false
  deriving DecidableEq, Repr

namespace LiveCatalog

/-- An entry put in its place. An entry of the same physical id makes way. -/
def place (entry : LiveEntry) : List LiveEntry → List LiveEntry
  | [] => [entry]
  | other :: rest =>
    if entry.table.physicalId < other.table.physicalId then entry :: other :: rest
    else if entry.table.physicalId = other.table.physicalId then entry :: rest
    else other :: place entry rest

/-- The first entry of a name is changed. -/
def changeFirst (name : String) (change : LiveEntry → LiveEntry) : List LiveEntry → List LiveEntry
  | [] => []
  | entry :: rest =>
    if entry.table.name = name then change entry :: rest else entry :: changeFirst name change rest

/-- The first entry of a name is removed. -/
def removeFirst (name : String) : List LiveEntry → List LiveEntry
  | [] => []
  | entry :: rest =>
    if entry.table.name = name then rest else entry :: removeFirst name rest

/-- The first column at a position takes another name. -/
def renameAt (position : Position) (name : String) : List LiveColumn → List LiveColumn
  | [] => []
  | column :: rest =>
    if column.position = position then { column with name } :: rest
    else column :: renameAt position name rest

variable (catalog : LiveCatalog)

/-! ## Statements -/

/-- A table is made. -/
def createTable (table : LiveTable) (columns : List LiveColumn) : LiveCatalog :=
  { catalog with entries := place ⟨table, columns⟩ catalog.entries }

/-- The columns of a table are changed. -/
def changeColumns (table : String) (change : List LiveColumn → List LiveColumn) : LiveCatalog :=
  { catalog with
    entries := changeFirst table
      (fun entry => { entry with columns := change entry.columns }) catalog.entries }

/-- A table takes another name; its physical id stays. -/
def renameTable (old new : String) : LiveCatalog :=
  let renamed (name : String) : String := if name = old then new else name
  { catalog with
    entries := changeFirst old
      (fun entry => { entry with table := { entry.table with name := new } }) catalog.entries
    foreignKeys := catalog.foreignKeys.map fun key =>
      { key with
        referencingTable := renamed key.referencingTable
        referencedTable := renamed key.referencedTable } }

/-- A table is dropped, and with it the foreign keys from it and to it. -/
def dropTable (name : String) : LiveCatalog :=
  { catalog with
    entries := removeFirst name catalog.entries
    foreignKeys := catalog.foreignKeys.filter fun key =>
      key.referencingTable ≠ name && key.referencedTable ≠ name }

/-- A column is added to a table. -/
def addColumn (table : String) (column : LiveColumn) : LiveCatalog :=
  catalog.changeColumns table (· ++ [column])

/-- The column at a position is dropped. -/
def dropColumn (table : String) (position : Position) : LiveCatalog :=
  catalog.changeColumns table (·.filter (·.position ≠ position))

/-- The column at a position takes another name. -/
def renameColumn (table : String) (position : Position) (name : String) : LiveCatalog :=
  catalog.changeColumns table (renameAt position name)

/-- A foreign key is added. Labels are not part of the live catalog. -/
def addForeignKey (key : ForeignKey) : LiveCatalog :=
  { catalog with foreignKeys := catalog.foreignKeys ++ [{ key with label := none }] }

/-- The foreign keys of a column are dropped. -/
def dropForeignKey (table column : String) : LiveCatalog :=
  { catalog with
    foreignKeys := catalog.foreignKeys.filter fun key =>
      key.referencingTable ≠ table || key.referencingColumn ≠ column }

/-- The columns of a table can no longer be listed. -/
def failColumns (table : String) : LiveCatalog :=
  { catalog with failingTables := table :: catalog.failingTables }

/-- The tables can no longer, or again, be listed. -/
def failListing (fails : Bool) : LiveCatalog :=
  { catalog with listingFails := fails }

/-! ## Questions -/

/-- The tables, by physical id. -/
def liveTables : Except CatalogError (List LiveTable) :=
  if catalog.listingFails then .error (.queryFailed "live_tables" "injected failure")
  else .ok (catalog.entries.map (·.table))

/-- The columns of the first table of a name, by position. -/
def liveColumns (table : String) : Except CatalogError (List LiveColumn) :=
  if table ∈ catalog.failingTables then
    .error (.queryFailed ("live_columns(" ++ table ++ ")") "injected failure")
  else
    let columns := (catalog.entries.find? (·.table.name = table)).elim [] (·.columns)
    .ok (columns.mergeSort fun a b => a.position ≤ b.position)

/-- The foreign keys from a table, in the order in which they were added. -/
def foreignKeysOf (table : String) : List ForeignKey :=
  catalog.foreignKeys.filter (·.referencingTable = table)

end LiveCatalog

end ShadowCatalog
