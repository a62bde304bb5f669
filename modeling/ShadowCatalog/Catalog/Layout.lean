import ShadowCatalog.Catalog.Program
import ShadowCatalog.DisplayOrder

/-!
# Edits of the presentation

What an operator may change by hand: the display order of a table, and the
column that labels its rows. Both are checked against what is tracked before
anything is written.
-/

namespace ShadowCatalog

/-- The tracked table of a name, which must exist. -/
def trackedTable (name : String) : CatalogTask TrackedTable := do
  match ← ask (.trackedTable name) with
  | some table => return table
  | none => throw (.validation (.unknownTable name))

/-- The display order of a table is replaced by one that lists each of its
    columns once. -/
def reorder (name : String) (order : List ColumnId) : CatalogTask Unit := do
  let table ← trackedTable name
  match DisplayOrder.validate name table.columnIds order with
  | .error cause => throw (.validation cause)
  | .ok () => ask (.write (.saveLayout table.tableId table.columnIds order))

/-- A column that exists is chosen to label the rows of a table, or none. -/
def chooseLabel (name : String) (column : Option String) : CatalogTask Unit := do
  let table ← trackedTable name
  if let some chosen := column then
    let columns ← ask (.trackedColumns table.tableId)
    if columns.all (·.name ≠ chosen) then
      throw (.validation (.invalidValue "label_column" (name ++ " has no column " ++ chosen)))
  ask (.write (.setLabelColumn table.tableId column))

end ShadowCatalog
