import ShadowCatalog.Problem.Basic
import ShadowCatalog.Settings.Environment
import ShadowCatalog.Text.Duration

/-!
# Settings of the service

The size of a page, the schema whose tables are tracked, and how long a pass and
a statement may take.
-/

namespace ShadowCatalog

open Text

/-- The settings of the service. -/
structure ServiceSettings where
  pageSize : Int := 50
  schema : String := "public"
  /-- How long a pass may take. -/
  syncTimeout : Duration := .ofSeconds 120
  /-- How long a browse statement may take. -/
  queryTimeout : Duration := .ofSeconds 30
  deriving DecidableEq, Repr

namespace ServiceSettings

/-- The smallest page. -/
def leastPageSize : Int := 1

/-- The largest page. -/
def greatestPageSize : Int := 10000

/-- The settings make sense. -/
def validate (settings : ServiceSettings) : Except Problem Unit :=
  if settings.pageSize < leastPageSize ∨ greatestPageSize < settings.pageSize then
    .error (.invalidRange "TABULA_PAGE_SIZE" leastPageSize greatestPageSize)
  else if settings.syncTimeout.isZero || settings.queryTimeout.isZero then
    .error (.invalidInput "Timeouts must be positive")
  else .ok ()

/-- The size of a page, which must be an integer if it is set. -/
def pageSizeOf (environment : Environment) : Except Problem Int :=
  match environment "TABULA_PAGE_SIZE" with
  | none => .ok ({} : ServiceSettings).pageSize
  | some text =>
    match signed? 64 (trim text.toList) with
    | some size => .ok size
    | none => .error (.invalidFormat "TABULA_PAGE_SIZE" "an integer")

/-- The schema, if one is set that is not blank. -/
def schema? (environment : Environment) : Option String :=
  ((environment "TABULA_SCHEMA").map trimmed).filter (· ≠ "")

/-- A number of whole seconds, with no blanks around it. -/
def seconds? (environment : Environment) (name : String) : Option Duration :=
  ((environment name).bind fun text => unsigned? 64 text.toList).map .ofSeconds

/-- The settings in an environment. What is not set, or cannot be read, stays as
    it is by default, apart from the size of a page. -/
def ofEnvironment (environment : Environment) : Except Problem ServiceSettings := do
  let defaults : ServiceSettings := {}
  let pageSize ← pageSizeOf environment
  let settings : ServiceSettings := {
    pageSize
    schema := (schema? environment).getD defaults.schema
    syncTimeout := (seconds? environment "TABULA_SYNC_TIMEOUT_SECS").getD defaults.syncTimeout
    queryTimeout := (seconds? environment "TABULA_QUERY_TIMEOUT_SECS").getD defaults.queryTimeout }
  settings.validate
  return settings

end ServiceSettings

end ShadowCatalog
