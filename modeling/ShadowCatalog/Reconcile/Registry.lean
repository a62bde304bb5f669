import ShadowCatalog.Reconcile.Report

/-!
# Reconciling the tables

The tracked tables are brought in line with the live ones in four steps. Each
lists the tracked tables anew and decides from that list, and from the live
tables, what to change:

1. *renames*: a tracked table whose physical id is live takes the live name;
2. *refreshes*: a tracked table whose name is live, under a physical id that no
   tracked table holds, was dropped and made again, and takes that id;
3. *removals*: a tracked table that is still not a live one is forgotten;
4. *insertions*: a live table that is still not tracked is tracked.
-/

namespace ShadowCatalog.Registry

/-- The tracked table is the live table: it has its name and its physical id. -/
def sameTable (tracked : TrackedTable) (live : LiveTable) : Bool :=
  live.name = tracked.name && live.physicalId = tracked.physicalId

/-- The live table of a physical id. -/
def liveAt? (live : List LiveTable) (physicalId : PhysicalId) : Option LiveTable :=
  live.reverse.find? (·.physicalId = physicalId)

/-- The live names for tracked tables that go by another name. -/
def renames (live : List LiveTable) (tracked : List TrackedTable) : List Write :=
  tracked.filterMap fun table =>
    (liveAt? live table.physicalId).bind fun current =>
      if current.name ≠ table.name then some (.renameTable table.tableId current.name) else none

/-- The new physical ids of tracked tables that were made again, when those in
    `held` are held by a tracked table. -/
def refreshesFrom (live : List LiveTable) (held : List PhysicalId) :
    List TrackedTable → List Write
  | [] => []
  | table :: tables =>
    match live.find? (·.name = table.name) with
    | none => refreshesFrom live held tables
    | some current =>
      if current.physicalId ∈ held then refreshesFrom live held tables
      else .updatePhysicalId table.tableId current.physicalId ::
        refreshesFrom live (current.physicalId :: held) tables

/-- The new physical ids of tracked tables that were made again. -/
def refreshes (live : List LiveTable) (tracked : List TrackedTable) : List Write :=
  refreshesFrom live (tracked.map (·.physicalId)) tracked

/-- The tracked tables that are not live. -/
def removals (live : List LiveTable) (tracked : List TrackedTable) : List Write :=
  (tracked.filter fun table => !live.any (sameTable table)).map fun table =>
    .deleteTable table.tableId

/-- The live tables that are not tracked. -/
def insertions (live : List LiveTable) (tracked : List TrackedTable) : List Write :=
  (live.filter fun table => !tracked.any (sameTable · table)).map fun table =>
    .insertTable table.name table.physicalId

/-- The steps, in order. -/
def steps : List (List LiveTable → List TrackedTable → List Write) :=
  [renames, refreshes, removals, insertions]

/-- The changes of a list, up to the first that fails. -/
def writeAll : List Write → SyncTask Unit
  | [] => return ()
  | w :: ws => do
    let _ ← SyncTask.write w
    writeAll ws

/-- One step. -/
def step (decide : List LiveTable → List TrackedTable → List Write) (live : List LiveTable) :
    SyncTask Unit := do
  writeAll (decide live (← SyncTask.ask .trackedTables))

/-- The steps of a list, up to the first that fails. -/
def inTurn (live : List LiveTable) :
    List (List LiveTable → List TrackedTable → List Write) → SyncTask Unit
  | [] => return ()
  | decide :: later => do
    step decide live
    inTurn live later

end ShadowCatalog.Registry
