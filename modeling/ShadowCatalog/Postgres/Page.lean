import ShadowCatalog.Browse.Planner
import ShadowCatalog.Interrupt
import ShadowCatalog.Postgres.Server
import ShadowCatalog.Problem.Basic

/-!
# Pages

A planned query is sent to the server, and the rows it gives make a page. While
the statement runs, the shutdown flag and the deadline are watched, the flag
first; whichever is due first ends it, and the connection is given up, as the
server may still be busy with the statement. Planning and connecting come before
that and are not interrupted.
-/

namespace ShadowCatalog.Postgres

/-- A page of a table. -/
structure BrowsePage where
  columns : List String
  /-- The rows, with the names of their columns. -/
  rows : List (List (String × Json))
  columnMeta : NameMap ColumnMeta
  pageSize : Int

/-! ## Problems -/

/-- What is said of a connection that cannot be had. -/
def problemOfPool : PoolError → Problem
  | .exhausted => .connectionPoolExhausted
  | .closed => .serviceUnavailable "Database connection pool is closed"
  | .unreachable => .serviceUnavailable "Failed to acquire database connection"

/-- What is said of a statement that failed. -/
def problemOfStatement : StatementError → Problem
  | .closed => .serviceUnavailable "Database connection closed"
  | _ => .databaseError "Database operation failed"

/-- What is said of a row that cannot be read. -/
def undecodableResult : Problem := .internalError "Failed to decode result row"

/-! ## Running a query -/

/-- What ends a statement that has no answer: the flag, or else the deadline. -/
def interruption (shutdown : ShutdownFlag) (deadline : Duration) : Timed Problem :=
  (shutdown.raised.map fun _ => .cancelled "browse").either
    (.finishing deadline.ticks (.timeout "browse"))

/-- What a query is asked of the server. -/
def requestOf (query : BrowseQuery) : Request := ⟨query.text, query.binds.map .text⟩

/-- The rows of a query: read at once, unless the flag or the deadline is due
    first. -/
def runQuery (query : BrowseQuery) (shutdown : ShutdownFlag) (deadline : Duration)
    (server : Server) : Except Problem ResultSet × Server :=
  match (interruption shutdown deadline).poll [] 0 with
  | some problem => (.error problem, server.setLink .missing .readWrite)
  | none =>
    match server.send .readWrite (requestOf query) with
    | (.finished result, later) => (result.mapError problemOfStatement, later)
    | (.silent, later) =>
      let due := (interruption shutdown deadline).outcome
      (.error (due.getD (.timeout "browse")), later.setLink .missing .readWrite)

/-- The page that the rows of a query make. -/
def pageOf (query : BrowseQuery) (result : ResultSet) : Except Problem BrowsePage :=
  match result.rowsJson? with
  | none => .error undecodableResult
  | some rows =>
    .ok {
      columns := result.columns.map (·.name)
      rows
      columnMeta := query.columnMeta
      pageSize := query.pageSize }

/-- The page of a planned query. -/
def fetchPage (query : BrowseQuery) (shutdown : ShutdownFlag) (deadline : Duration)
    (server : Server) : Except Problem BrowsePage × Server :=
  match server.connect .readWrite with
  | .error cause => (.error (problemOfPool cause), server)
  | .ok server =>
    let (result, later) := runQuery query shutdown deadline server
    (result.bind (pageOf query), later)

/-- The page that planning leads to. -/
def servePage (planned : Except Error BrowseQuery) (shutdown : ShutdownFlag)
    (deadline : Duration) (server : Server) : Except Problem BrowsePage × Server :=
  match planned with
  | .error cause => (.error (.ofError cause), server)
  | .ok query => fetchPage query shutdown deadline server

/-! ## Other statements -/

/-- The rows of a statement, with the names of its columns. -/
def fetchRows (request : Request) (server : Server) :
    Except Problem (List String × List (List (String × Json))) × Server :=
  match server.connect .readWrite with
  | .error cause => (.error (problemOfPool cause), server)
  | .ok server =>
    let (result, later) := server.execute .readWrite request
    (match result with
      | .error cause => .error (problemOfStatement cause)
      | .ok result =>
        match result.rowsJson? with
        | some rows => .ok (result.columns.map (·.name), rows)
        | none => .error undecodableResult, later)

/-- A round trip over a connection of a kind. -/
def healthCheck (access : Access) (server : Server) : Except Problem Unit × Server :=
  match server.connect access with
  | .error cause => (.error (problemOfPool cause), server)
  | .ok server =>
    let (result, later) := server.execute access ⟨"SELECT 1", []⟩
    ((result.bind fun rows => if rows.rows.length = 1 then .ok () else .error .rowCount).mapError
      problemOfStatement, later)

end ShadowCatalog.Postgres
