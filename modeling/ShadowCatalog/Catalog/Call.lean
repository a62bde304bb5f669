import ShadowCatalog.Catalog.Basic
import ShadowCatalog.Error

/-!
# Calls

Everything the catalogs can be asked. The live catalog is only read; the shadow
catalog is read and written. Each call says what a reply to it is, and an error
may stand in for any reply.
-/

namespace ShadowCatalog

/-- A change of the shadow catalog. -/
inductive Write
  /-- A table is tracked from now on. -/
  | insertTable (name : String) (physicalId : PhysicalId)
  | renameTable (table : TableId) (name : String)
  | updatePhysicalId (table : TableId) (physicalId : PhysicalId)
  /-- A table is forgotten, with its columns. -/
  | deleteTable (table : TableId)
  /-- A table takes another set of columns and another display order. -/
  | saveLayout (table : TableId) (columnIds : IdSet) (displayOrder : List ColumnId)
  | setLabelColumn (table : TableId) (label : Option String)
  /-- A column is tracked from now on. -/
  | insertColumn (table : TableId) (column : LiveColumn)
  /-- A column takes another record, found by its id. -/
  | updateColumn (column : TrackedColumn)
  | deleteColumn (column : ColumnId)
  deriving DecidableEq, Repr

/-- The reply to a change: the new id if there is one. -/
abbrev Write.Reply : Write → Type
  | .insertTable .. => TableId
  | .insertColumn .. => ColumnId
  | _ => Unit

/-- The new id in a reply, if there is one. -/
def Write.newId? : (write : Write) → write.Reply → Option Int
  | .insertTable .., id => some id
  | .insertColumn .., id => some id
  | .renameTable .., _ => none
  | .updatePhysicalId .., _ => none
  | .deleteTable _, _ => none
  | .saveLayout .., _ => none
  | .setLabelColumn .., _ => none
  | .updateColumn _, _ => none
  | .deleteColumn _, _ => none

/-- A question to the catalogs, or a change of the shadow catalog. -/
inductive Call
  /-- The live tables. -/
  | liveTables
  /-- The columns of a live table, by position. -/
  | liveColumns (table : String)
  /-- The foreign keys of a live table, without labels. -/
  | foreignKeys (table : String)
  /-- The tracked tables. -/
  | trackedTables
  /-- The tracked table of a name, if there is one. -/
  | trackedTable (name : String)
  /-- The columns of a tracked table, in no particular order. -/
  | trackedColumns (table : TableId)
  /-- A change. -/
  | write (write : Write)
  deriving DecidableEq, Repr

/-- The reply to a call. -/
abbrev Call.Reply : Call → Type
  | .liveTables => List LiveTable
  | .liveColumns _ => List LiveColumn
  | .foreignKeys _ => List ForeignKey
  | .trackedTables => List TrackedTable
  | .trackedTable _ => Option TrackedTable
  | .trackedColumns _ => List TrackedColumn
  | .write w => w.Reply

/-- The kinds of calls. -/
inductive CallKind
  | liveTables
  | liveColumns
  | foreignKeys
  | trackedTables
  | trackedTable
  | trackedColumns
  | insertTable
  | renameTable
  | updatePhysicalId
  | deleteTable
  | saveLayout
  | setLabelColumn
  | insertColumn
  | updateColumn
  | deleteColumn
  deriving DecidableEq, Repr

/-- The kind of a change. -/
def Write.kind : Write → CallKind
  | .insertTable .. => .insertTable
  | .renameTable .. => .renameTable
  | .updatePhysicalId .. => .updatePhysicalId
  | .deleteTable _ => .deleteTable
  | .saveLayout .. => .saveLayout
  | .setLabelColumn .. => .setLabelColumn
  | .insertColumn .. => .insertColumn
  | .updateColumn _ => .updateColumn
  | .deleteColumn _ => .deleteColumn

/-- The kind of a call. -/
def Call.kind : Call → CallKind
  | .liveTables => .liveTables
  | .liveColumns _ => .liveColumns
  | .foreignKeys _ => .foreignKeys
  | .trackedTables => .trackedTables
  | .trackedTable _ => .trackedTable
  | .trackedColumns _ => .trackedColumns
  | .write w => w.kind

end ShadowCatalog
