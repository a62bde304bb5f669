import ShadowCatalog.Problem.Basic
import ShadowCatalog.Settings.Environment
import ShadowCatalog.Text.Duration

/-!
# Settings of the database

How the database is reached. There are two ways: one to read and write, and one
to read only, whose settings are those of the first apart from what is set for
it alone.
-/

namespace ShadowCatalog

/-- How a database is reached. -/
structure DatabaseSettings where
  host : String := "localhost"
  port : Nat := 5432
  database : String := "tabula"
  user : String := "postgres"
  password : String := ""
  /-- The most connections held at one time. -/
  maxConnections : Nat := 16
  /-- How long making a connection may take. -/
  timeout : Duration := .ofSeconds 30
  /-- How long the server lets a statement take. -/
  statementTimeout : Option Duration := none
  /-- Nothing may be written. -/
  readOnly : Bool := false
  deriving DecidableEq, Repr

namespace DatabaseSettings

/-- The settings to read and write. -/
def ofEnvironment (environment : Environment) : DatabaseSettings :=
  let defaults : DatabaseSettings := {}
  { host := (environment "TABULA_DB_HOST").getD defaults.host
    port := (environment.number? 16 "TABULA_DB_PORT").getD defaults.port
    database := (environment "TABULA_DB_NAME").getD defaults.database
    user := (environment "TABULA_DB_USER").getD defaults.user
    password := (environment "TABULA_DB_PASSWORD").getD defaults.password
    maxConnections := (environment.number? 64 "TABULA_DB_POOL_SIZE").getD defaults.maxConnections
    timeout := ((environment.number? 64 "TABULA_DB_TIMEOUT").map .ofSeconds).getD defaults.timeout
    statementTimeout :=
      ((environment.number? 64 "TABULA_DB_STATEMENT_TIMEOUT_MS").filter (· > 0)).map
        .ofMilliseconds }

/-- The settings to read only. -/
def readOnlyFrom (base : DatabaseSettings) (environment : Environment) : DatabaseSettings :=
  { base with
    host := (environment "TABULA_RO_DB_HOST").getD base.host
    port := (environment.number? 16 "TABULA_RO_DB_PORT").getD base.port
    database := (environment "TABULA_RO_DB_NAME").getD base.database
    user := (environment "TABULA_RO_DB_USER").getD base.user
    password := (environment "TABULA_RO_DB_PASSWORD").getD base.password
    maxConnections := (environment.number? 64 "TABULA_RO_DB_POOL_SIZE").getD base.maxConnections
    readOnly := true }

/-- The options with which a session is opened, if there are any. -/
def sessionOptions (statementTimeout : Option Duration) (readOnly : Bool) : Option String :=
  let options :=
    (statementTimeout.map fun d => "-c statement_timeout=" ++ toString d.milliseconds).toList ++
      if readOnly then ["-c default_transaction_read_only=on"] else []
  if options.isEmpty then none else some (" ".intercalate options)

/-- The options with which a session of these settings is opened. -/
def options (settings : DatabaseSettings) : Option String :=
  sessionOptions settings.statementTimeout settings.readOnly

/-- Connections can be held for these settings: the database has a name. -/
def checkPool (settings : DatabaseSettings) : Except Problem Unit :=
  if settings.database = "" then
    .error (.databaseError
      "Failed to create pool: Config: configuration property \"dbname\" not found")
  else .ok ()

end DatabaseSettings

/-- The two ways to reach the database. -/
structure DatabaseHandles where
  readWrite : DatabaseSettings
  readOnly : DatabaseSettings
  deriving DecidableEq, Repr

/-- The two ways set in an environment. Connections must be possible by both. -/
def DatabaseHandles.ofEnvironment (environment : Environment) : Except Problem DatabaseHandles := do
  let readWrite := DatabaseSettings.ofEnvironment environment
  let readOnly := readWrite.readOnlyFrom environment
  readWrite.checkPool
  readOnly.checkPool
  return ⟨readWrite, readOnly⟩

end ShadowCatalog
