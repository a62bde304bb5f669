import ShadowCatalog.Catalog.Program

/-!
# Labels of foreign keys

The foreign keys of a table, each with the label of the table it refers to: the
column that labels that table's rows, if the table is tracked and has one. Each
table is looked up once, and what was found, or not found, holds for all keys
that refer to it.
-/

namespace ShadowCatalog

/-- The label of a table. -/
def tableLabel (name : String) : CatalogTask (Option Label) := do
  match ← ask (.trackedTable name) with
  | none => return none
  | some table =>
    let columns ← ask (.trackedColumns table.tableId)
    return (labelColumn? table.labelColumn columns).map TrackedColumn.label

/-- The foreign keys with their labels, when those of the tables in `known` are
    known. -/
def labelForeignKeys (known : List (String × Option Label)) :
    List ForeignKey → CatalogTask (List ForeignKey)
  | [] => return []
  | key :: keys => do
    let label ←
      match known.find? (·.1 = key.referencedTable) with
      | some (_, label) => pure label
      | none => tableLabel key.referencedTable
    let others ← labelForeignKeys ((key.referencedTable, label) :: known) keys
    return { key with label } :: others

/-- The foreign keys of a table with their labels. -/
def resolveForeignKeys (table : String) : CatalogTask (List ForeignKey) := do
  labelForeignKeys [] (← ask (.foreignKeys table))

end ShadowCatalog
