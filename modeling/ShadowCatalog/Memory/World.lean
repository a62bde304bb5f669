import ShadowCatalog.Catalog.Program
import ShadowCatalog.Memory.Fault
import ShadowCatalog.Memory.LiveCatalog
import ShadowCatalog.Memory.ShadowStore

/-!
# Catalogs in memory

A live and a shadow catalog held in memory answer calls as a database would,
apart from the faults set for them. A call that a fault makes fail touches
nothing. The changes that succeed are logged.
-/

namespace ShadowCatalog

/-- A change that succeeded. -/
structure LoggedWrite where
  write : Write
  /-- The new id, if there is one. -/
  newId : Option Int
  deriving DecidableEq, Repr

/-- The catalogs, and what is set for them. -/
structure World where
  live : LiveCatalog := {}
  store : ShadowStore := {}
  faults : List Fault := []
  /-- A listing of live tables that takes the place of the true one. -/
  liveListing : Option (List LiveTable) := none
  /-- The changes that succeeded, the last one first. -/
  log : List LoggedWrite := []
  deriving DecidableEq, Repr

namespace World

/-- The live tables as listed. -/
def liveTables (world : World) : Except CatalogError (List LiveTable) :=
  match world.liveListing with
  | some tables => .ok tables
  | none => world.live.liveTables

/-- The reply to a call, and the world after it, where no fault strikes. -/
def answer (world : World) : (call : Call) → Except Error call.Reply × World
  | .liveTables => (world.liveTables.mapError .catalog, world)
  | .liveColumns table => ((world.live.liveColumns table).mapError .catalog, world)
  | .foreignKeys table => (.ok (world.live.foreignKeysOf table), world)
  | .trackedTables => (.ok world.store.tables, world)
  | .trackedTable name => (.ok (world.store.tableNamed? name), world)
  | .trackedColumns table => (.ok (world.store.columnsOf table), world)
  | .write w =>
    match world.store.write w with
    | .error cause => (.error (.catalog cause), world)
    | .ok (reply, store) =>
      (.ok reply, { world with store, log := ⟨w, w.newId? reply⟩ :: world.log })

/-- The catalogs as a responder. -/
def respond : Responder World := fun call world =>
  match strike call.kind world.faults with
  | (some error, faults) => (.error error, { world with faults })
  | (none, faults) => answer { world with faults } call

end World

end ShadowCatalog
