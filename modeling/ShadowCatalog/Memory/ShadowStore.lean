import ShadowCatalog.Catalog.Call

/-!
# A shadow catalog in memory

The tracked tables and columns held as a value. Ids are given out in ascending
order and never again, and rows are kept in the order of their ids. A change of
a row that does not exist fails and changes nothing; a removal never fails.
-/

namespace ShadowCatalog

/-- A shadow catalog. -/
structure ShadowStore where
  tables : List TrackedTable := []
  columns : List TrackedColumn := []
  /-- The last id given to a table. -/
  lastTableId : TableId := 0
  /-- The last id given to a column. -/
  lastColumnId : ColumnId := 0
  /-- The number of changes made. -/
  writes : Nat := 0
  deriving DecidableEq, Repr

namespace ShadowStore

variable (store : ShadowStore)

/-- The first tracked table of a name. -/
def tableNamed? (name : String) : Option TrackedTable :=
  store.tables.find? (·.name = name)

/-- The columns of a tracked table. -/
def columnsOf (table : TableId) : List TrackedColumn :=
  store.columns.filter (·.tableId = table)

/-- There is a tracked table of this id. -/
def hasTable (table : TableId) : Bool := store.tables.any (·.tableId = table)

/-- There is a tracked column of this id. -/
def hasColumn (column : ColumnId) : Bool := store.columns.any (·.columnId = column)

/-- The row of a table changed. -/
def changeTable (table : TableId) (change : TrackedTable → TrackedTable) :
    Except CatalogError ShadowStore :=
  if store.hasTable table then
    .ok { store with
      tables := store.tables.map fun row => if row.tableId = table then change row else row
      writes := store.writes + 1 }
  else .error (.rowMissing ("table " ++ toString table))

/-- A table of a new id. -/
def insertTable (name : String) (physicalId : PhysicalId) : TableId × ShadowStore :=
  let id := store.lastTableId + 1
  (id, { store with
    tables := store.tables ++ [.new id name physicalId]
    lastTableId := id
    writes := store.writes + 1 })

/-- A table and its columns removed. -/
def deleteTable (table : TableId) : ShadowStore :=
  { store with
    tables := store.tables.filter (·.tableId ≠ table)
    columns := store.columns.filter (·.tableId ≠ table)
    writes := store.writes + 1 }

/-- A column of a new id, in a table that exists. -/
def insertColumn (table : TableId) (column : LiveColumn) :
    Except CatalogError (ColumnId × ShadowStore) :=
  if store.hasTable table then
    let id := store.lastColumnId + 1
    .ok (id, { store with
      columns := store.columns ++ [.ofLive id table column]
      lastColumnId := id
      writes := store.writes + 1 })
  else .error (.rowMissing ("table " ++ toString table))

/-- The row of a column replaced. -/
def updateColumn (column : TrackedColumn) : Except CatalogError ShadowStore :=
  if store.hasColumn column.columnId then
    .ok { store with
      columns := store.columns.map fun row =>
        if row.columnId = column.columnId then column else row
      writes := store.writes + 1 }
  else .error (.rowMissing ("column " ++ toString column.columnId))

/-- A column removed. -/
def deleteColumn (column : ColumnId) : ShadowStore :=
  { store with
    columns := store.columns.filter (·.columnId ≠ column)
    writes := store.writes + 1 }

/-- A change: the reply to it, and the store after it. -/
def write : (w : Write) → Except CatalogError (w.Reply × ShadowStore)
  | .insertTable name physicalId => .ok (store.insertTable name physicalId)
  | .renameTable table name =>
    (store.changeTable table ({ · with name })).map ((), ·)
  | .updatePhysicalId table physicalId =>
    (store.changeTable table ({ · with physicalId })).map ((), ·)
  | .deleteTable table => .ok ((), store.deleteTable table)
  | .saveLayout table columnIds displayOrder =>
    (store.changeTable table ({ · with columnIds, displayOrder })).map ((), ·)
  | .setLabelColumn table labelColumn =>
    (store.changeTable table ({ · with labelColumn })).map ((), ·)
  | .insertColumn table column => store.insertColumn table column
  | .updateColumn column => (store.updateColumn column).map ((), ·)
  | .deleteColumn column => .ok ((), store.deleteColumn column)

end ShadowStore

end ShadowCatalog
