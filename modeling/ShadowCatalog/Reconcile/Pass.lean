import ShadowCatalog.Reconcile.Columns
import ShadowCatalog.Reconcile.Registry

/-!
# A reconciliation pass

One pass brings the shadow catalog in line with the live catalog: first the
tables, then the columns of each tracked table. An error while the tables are
reconciled ends the pass. An error while the columns of a table are reconciled
leaves out that table, as the report says, and what was changed before the error
stays changed and stays counted.
-/

namespace ShadowCatalog

/-- The columns of a table are reconciled, or the table is left out. -/
def reconcileOrSkip (policy : OrderPolicy) (table : TrackedTable) : SyncTask Unit :=
  tryCatch (Columns.reconcile policy table) fun cause =>
    modify (·.skipping table.name cause)

/-- The columns of each of the tables are reconciled. -/
def reconcileEach (policy : OrderPolicy) : List TrackedTable → SyncTask Unit
  | [] => return ()
  | table :: tables => do
    reconcileOrSkip policy table
    reconcileEach policy tables

/-- The stretches of a pass, in order. -/
def passStretch (policy : OrderPolicy) : SyncTask Unit := do
  let live ← SyncTask.ask .liveTables
  Registry.inTurn live Registry.steps
  reconcileEach policy (← SyncTask.ask .trackedTables)

/-- A pass. -/
def syncPass (policy : OrderPolicy) : CatalogTask SyncReport :=
  ExceptT.mk do
    let (outcome, report) ← (passStretch policy).run.run {}
    return outcome.map fun _ => report

/-- A pass that a shutdown flag may keep from beginning. Where calls are answered
    at once, a pass takes no time, and no later signal and no deadline comes
    between its calls. -/
def syncPassUnless (raised : Bool) (policy : OrderPolicy) : CatalogTask SyncReport :=
  if raised then throw (.catalog (.cancelled "schema sync")) else syncPass policy

end ShadowCatalog
