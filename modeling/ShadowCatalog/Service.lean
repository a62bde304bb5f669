import ShadowCatalog.Command
import ShadowCatalog.Json.Printer
import ShadowCatalog.Postgres.Catalogs
import ShadowCatalog.Postgres.Page
import ShadowCatalog.Problem.Json
import ShadowCatalog.Reconcile.Pass
import ShadowCatalog.Settings.Database
import ShadowCatalog.Settings.Service

/-!
# The service

The parts put together: a service has its settings and the two ways to reach
its database. It reconciles its schema, and it shows pages of tracked tables.
A command is carried out in three stages: the shadow tables are made where they
are not there yet, the work is done, and the result is written in JSON.
-/

namespace ShadowCatalog

/-- A service. -/
structure Service where
  settings : ServiceSettings
  handles : DatabaseHandles
  deriving DecidableEq, Repr

/-- A sync report in JSON. -/
def SyncReport.toJson (r : SyncReport) : Json :=
  .object [
    ("tables_renamed", .nat r.tablesRenamed),
    ("tables_refreshed", .nat r.tablesRefreshed),
    ("tables_removed", .nat r.tablesRemoved),
    ("tables_inserted", .nat r.tablesInserted),
    ("columns_inserted", .nat r.columnsInserted),
    ("columns_updated", .nat r.columnsUpdated),
    ("columns_deleted", .nat r.columnsDeleted),
    ("layouts_saved", .nat r.layoutsSaved),
    ("tables_skipped", .ofList (fun skipped : SkippedTable => .object
      [("table", .string skipped.table), ("reason", .string skipped.reason)])
      r.tablesSkipped)]

/-- What is told about an output column, in JSON. -/
def ColumnMeta.toJson (column : ColumnMeta) : Json :=
  .object (("data_type", .string column.dataType) ::
    (column.labelTable.toList.map fun table => ("label_table", .string table)) ++
    column.labelColumn.toList.map fun label => ("label_column", .string label))

/-- A page in JSON. -/
def Postgres.BrowsePage.toJson (page : Postgres.BrowsePage) : Json :=
  .object [
    ("columns", .ofList .string page.columns),
    ("rows", .ofList .object page.rows),
    ("column_meta", .object (page.columnMeta.map fun (name, column) => (name, column.toJson))),
    ("page_size", .int page.pageSize)]

namespace Service

open Postgres

/-- The service set in an environment. -/
def ofEnvironment (environment : Environment) : Except Problem Service := do
  let settings ← ServiceSettings.ofEnvironment environment
  let handles ← DatabaseHandles.ofEnvironment environment
  return ⟨settings, handles⟩

variable (service : Service)

/-- One pass, to its end. -/
def sync (server : Server) : Except Error SyncReport × Server :=
  (syncPass DisplayOrder.merge).perform (respond service.settings.schema) server

/-- The page of a request. -/
def browse (request : BrowseRequest) (shutdown : ShutdownFlag) (server : Server) :
    Except Problem BrowsePage × Server :=
  let (planned, server) :=
    (planBrowse DisplayOrder.merge request service.settings.pageSize).perform
      (respond service.settings.schema) server
  servePage planned shutdown service.settings.queryTimeout server

/-- What a command prints. -/
def perform (command : Command) (server : Server) : Except Problem String × Server :=
  let (made, server) := ensureShadowTables server
  match made with
  | .error cause => (.error (.ofError cause), server)
  | .ok () =>
    match command with
    | .sync =>
      let (report, server) := service.sync server
      ((report.map fun r => r.toJson.pretty).mapError Problem.ofError, server)
    | .browse request =>
      let (page, server) := service.browse request {} server
      (page.map fun p => p.toJson.pretty, server)

end Service

end ShadowCatalog
