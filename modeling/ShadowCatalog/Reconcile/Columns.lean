import ShadowCatalog.DisplayOrder
import ShadowCatalog.Reconcile.Report

/-!
# Reconciling the columns of a table

A tracked column is the live column at its position. From the rows tracked for a
table and its live columns follow the steps that bring the rows in line
(`Columns.steps`):

* of several rows at one position, the one with the least id stays;
* a row at the position of a live column is kept, and brought up to date;
* a live column without a row is tracked;
* a row without a live column is forgotten.

The ids of the rows that stay make the new set of columns, which is saved, with
the display order that the policy makes of it, if either is new.
-/

namespace ShadowCatalog.Columns

/-- A step for one column. -/
inductive Step
  /-- The row stays as it is. -/
  | keep (column : ColumnId)
  /-- The row is replaced. -/
  | update (column : TrackedColumn)
  /-- A row is made. -/
  | insert (column : LiveColumn)
  /-- The row is forgotten. -/
  | delete (column : ColumnId)
  deriving DecidableEq, Repr

/-- The order of rows by position, and by id at one position. -/
def comesFirst (a b : TrackedColumn) : Bool :=
  a.position < b.position || (a.position = b.position && a.columnId ≤ b.columnId)

/-- The first row at each position that is not in `seen`. -/
def firsts (seen : List Position) : List TrackedColumn → List TrackedColumn
  | [] => []
  | row :: rows =>
    if row.position ∈ seen then firsts seen rows
    else row :: firsts (row.position :: seen) rows

/-- The rows at positions that are in `seen` or that an earlier row has. -/
def repeats (seen : List Position) : List TrackedColumn → List TrackedColumn
  | [] => []
  | row :: rows =>
    if row.position ∈ seen then row :: repeats seen rows
    else repeats (row.position :: seen) rows

/-- The step for the row at the position of a live column. -/
def matched (row : TrackedColumn) (live : LiveColumn) : Step :=
  if row.differsFrom live then .update (row.apply live) else .keep row.columnId

/-- The steps for the live columns, and then for the rows that are left. -/
def matchUp (rows : List TrackedColumn) : List LiveColumn → List Step
  | [] => rows.map fun row => .delete row.columnId
  | live :: lives =>
    match rows.find? (·.position = live.position) with
    | none => .insert live :: matchUp rows lives
    | some row =>
      matched row live :: matchUp (rows.filter (·.position ≠ live.position)) lives

/-- The steps for a table with these rows and these live columns. -/
def steps (rows : List TrackedColumn) (live : List LiveColumn) : List Step :=
  let sorted := rows.mergeSort comesFirst
  (repeats [] sorted).map (fun row => .delete row.columnId) ++ matchUp (firsts [] sorted) live

/-- One step for a table. Gives the id of the row that stays, if one does. -/
def Step.perform (table : TableId) : Step → SyncTask (Option ColumnId)
  | .keep id => return some id
  | .update column => do
    SyncTask.write (.updateColumn column)
    return some column.columnId
  | .insert column => do
    let id ← SyncTask.write (.insertColumn table column)
    return some id
  | .delete id => do
    SyncTask.write (.deleteColumn id)
    return none

/-- The steps of a list, up to the first that fails. Gives the ids of the rows
    that stay. -/
def perform (table : TableId) : List Step → SyncTask (List ColumnId)
  | [] => return []
  | step :: steps => do
    let id ← step.perform table
    let ids ← perform table steps
    return id.toList ++ ids

/-- The columns and the display order of a table are saved, if either is new. -/
def saveLayout (policy : OrderPolicy) (table : TrackedTable) (columnIds : IdSet) :
    SyncTask Unit := do
  let displayOrder := policy table.displayOrder columnIds
  if columnIds ≠ table.columnIds ∨ displayOrder ≠ table.displayOrder then
    SyncTask.write (.saveLayout table.tableId columnIds displayOrder)

/-- The columns of a table are brought in line with the live ones. -/
def reconcile (policy : OrderPolicy) (table : TrackedTable) : SyncTask Unit := do
  let live ← SyncTask.ask (.liveColumns table.name)
  let rows ← SyncTask.ask (.trackedColumns table.tableId)
  let ids ← perform table.tableId (steps rows live)
  saveLayout policy table (.ofList ids)

end ShadowCatalog.Columns
