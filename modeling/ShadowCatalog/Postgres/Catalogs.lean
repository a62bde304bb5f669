import ShadowCatalog.Catalog.Program
import ShadowCatalog.Postgres.Statements

/-!
# Catalogs on a server

A server answers the calls to the catalogs: each call is one statement over the
connection to read and write, and its reply is read off the rows. What goes
wrong is an error of the connection, of the statement, or of a row that does not
hold what it should.
-/

namespace ShadowCatalog.Postgres

variable {α : Type}

/-! ## Reading rows -/

/-- The live table of a row. -/
def liveTableOf (row : Row) : Except StatementError LiveTable := do
  return {
    physicalId := ← row.get .oid "physical_id"
    name := ← row.get .text "table_name" }

/-- The live column of a row. -/
def liveColumnOf (row : Row) : Except StatementError LiveColumn := do
  return {
    position := ← row.get .int2 "position"
    name := ← row.get .text "column_name"
    dataType := ← row.get .text "data_type"
    isNullable := ← row.get .bool "is_nullable"
    defaultExpr := ← row.optional .text "default_expr"
    isIdentity := ← row.get .bool "is_identity"
    generatedExpr := ← row.optional .text "generated_expr" }

/-- The foreign key of a row. -/
def foreignKeyOf (row : Row) : Except StatementError ForeignKey := do
  return {
    referencingTable := ← row.get .text "referencing_table"
    referencingColumn := ← row.get .text "referencing_column"
    referencedTable := ← row.get .text "referenced_table"
    referencedColumn := ← row.get .text "referenced_column" }

/-- The tracked table of a row. The two lists are read first. -/
def trackedTableOf (row : Row) : Except StatementError TrackedTable := do
  let columnIds ← row.getIntegers "column_ids"
  let displayOrder ← row.getIntegers "display_order"
  return {
    tableId := ← row.get .int8 "table_id"
    name := ← row.get .text "name"
    physicalId := ← row.get .oid "physical_id"
    columnIds := .ofList columnIds
    displayOrder
    labelColumn := ← row.optional .text "label_column" }

/-- The tracked column of a row. -/
def trackedColumnOf (row : Row) : Except StatementError TrackedColumn := do
  return {
    columnId := ← row.get .int8 "column_id"
    tableId := ← row.get .int8 "table_id"
    position := ← row.get .int2 "position"
    name := ← row.get .text "name"
    dataType := ← row.get .text "data_type" }

/-! ## Errors -/

/-- A question that failed. -/
def queryFailed (operation : String) (cause : StatementError) : Error :=
  .catalog (.queryFailed operation cause.message)

/-- A row that does not hold what it should. -/
def undecodableRow (what : String) (cause : StatementError) : Error :=
  .catalog (.queryFailed what ("undecodable row: " ++ cause.message))

/-- A change that failed. -/
def writeFailed (operation table : String) (cause : StatementError) : Error :=
  .catalog (.writeFailed operation table cause.message)

/-- The server with a connection to read and write, or the reason there is none. -/
def connected (server : Server) : Except Error Server :=
  (server.connect .readWrite).mapError fun cause => .catalog (.connectionFailed cause.message)

/-- What a statement gives, when `failed` says what its failure means. -/
def statement (request : Request) (failed : StatementError → Error) (server : Server) :
    Except Error ResultSet × Server :=
  match connected server with
  | .error cause => (.error cause, server)
  | .ok server =>
    let (result, later) := server.execute .readWrite request
    (result.mapError failed, later)

/-! ## Questions -/

/-- The rows that a question gives. -/
def question (request : Request) (operation what : String) (read : Row → Except StatementError α)
    (server : Server) : Except Error (List α) × Server :=
  let (result, later) := statement request (queryFailed operation) server
  (result.bind fun rows => (rows.toRows.mapM read).mapError (undecodableRow what), later)

/-- The row that a question gives, if it gives one. -/
def questionOne (request : Request) (operation what : String)
    (read : Row → Except StatementError α) (server : Server) :
    Except Error (Option α) × Server :=
  let (result, later) := statement request (queryFailed operation) server
  (result.bind fun rows =>
    match rows.toRows with
    | [] => .ok none
    | [row] => ((read row).map some).mapError (undecodableRow what)
    | _ => .error (queryFailed operation .rowCount), later)

/-! ## Changes -/

/-- The number in the one row that a statement gives. -/
def newId (request : Request) (operation table : String) (server : Server) :
    Except Error Int × Server :=
  let failed := writeFailed operation table
  let (result, later) := statement request failed server
  (result.bind fun rows =>
    match rows.toRows with
    | [row] => (row.getAt .int8 0).mapError (undecodableRow operation)
    | _ => .error (failed .rowCount), later)

/-- A change of a row that must be there. -/
def changeRow (request : Request) (operation what : String) (server : Server) :
    Except Error Unit × Server :=
  let (result, later) := statement request (writeFailed operation what) server
  (result.bind fun rows =>
    if rows.affected = 0 then .error (.catalog (.rowMissing what)) else .ok (), later)

/-- What a table is called in errors. -/
def tableRow (table : TableId) : String := "table " ++ toString table

/-- What a column is called in errors. -/
def columnRow (column : ColumnId) : String := "column " ++ toString column

/-- The reply to a change. -/
def writeReply (server : Server) : (w : Write) → Except Error w.Reply × Server
  | .insertTable name physicalId =>
    newId (.write (.insertTable name physicalId)) "insert_table" name server
  | .renameTable table name =>
    changeRow (.write (.renameTable table name)) "rename_table" (tableRow table) server
  | .updatePhysicalId table physicalId =>
    changeRow (.write (.updatePhysicalId table physicalId)) "update_physical_id"
      (tableRow table) server
  | .deleteTable table =>
    changeRow (.write (.deleteTable table)) "delete_table" (tableRow table) server
  | .saveLayout table columnIds displayOrder =>
    changeRow (.write (.saveLayout table columnIds displayOrder)) "save_layout"
      (tableRow table) server
  | .setLabelColumn table label =>
    changeRow (.write (.setLabelColumn table label)) "set_label_column" (tableRow table) server
  | .insertColumn table column =>
    newId (.write (.insertColumn table column)) "insert_column" (tableRow table) server
  | .updateColumn column =>
    changeRow (.write (.updateColumn column)) "update_column" (columnRow column.columnId) server
  | .deleteColumn column =>
    changeRow (.write (.deleteColumn column)) "delete_column" (columnRow column) server

/-- The reply to a call. -/
def reply (schema : String) (server : Server) : (call : Call) → Except Error call.Reply × Server
  | .liveTables => question (.liveTables schema) "live_tables" "live table" liveTableOf server
  | .liveColumns table =>
    question (.liveColumns schema table) ("live_columns(" ++ table ++ ")") "live column"
      liveColumnOf server
  | .foreignKeys table =>
    question (.foreignKeys schema table) ("foreign_keys(" ++ table ++ ")") "foreign key"
      foreignKeyOf server
  | .trackedTables => question .trackedTables "list_tables" "tracked table" trackedTableOf server
  | .trackedTable name =>
    questionOne (.trackedTable name) "get_table" "tracked table" trackedTableOf server
  | .trackedColumns table =>
    question (.trackedColumns table) "list_columns" "column detail" trackedColumnOf server
  | .write w => writeReply server w

/-- A server, of which one schema is looked at, as a responder. -/
def respond (schema : String) : Responder Server := fun call server => reply schema server call

/-- The tables of the shadow catalog are made where they are not there yet. -/
def ensureShadowTables (server : Server) : Except Error Unit × Server :=
  match connected server with
  | .error cause => (.error cause, server)
  | .ok server =>
    let (result, later) := server.executeBatch .readWrite createShadowTables
    (result.mapError (writeFailed "ensure_schema" (", ".intercalate shadowTables)), later)

end ShadowCatalog.Postgres
