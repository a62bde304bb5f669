import ShadowCatalog.Service

/-!
# The command line

Reads the environment and the arguments, carries out the command, and prints the
result, or the problem and the status that goes with it. No server can be
reached from here: connecting is refused.
-/

namespace ShadowCatalog

/-- The variables that are looked at. -/
def variableNames : List String :=
  ["TABULA_PAGE_SIZE", "TABULA_SCHEMA", "TABULA_SYNC_TIMEOUT_SECS",
    "TABULA_QUERY_TIMEOUT_SECS", "TABULA_DB_HOST", "TABULA_DB_PORT", "TABULA_DB_NAME",
    "TABULA_DB_USER", "TABULA_DB_PASSWORD", "TABULA_DB_POOL_SIZE", "TABULA_DB_TIMEOUT",
    "TABULA_DB_STATEMENT_TIMEOUT_MS", "TABULA_RO_DB_HOST", "TABULA_RO_DB_PORT",
    "TABULA_RO_DB_NAME", "TABULA_RO_DB_USER", "TABULA_RO_DB_PASSWORD",
    "TABULA_RO_DB_POOL_SIZE"]

/-- The environment of this process. -/
def readEnvironment : IO Environment := do
  let values ← variableNames.filterMapM fun name => do
    return (← IO.getEnv name).map fun value => (name, value)
  return fun name => (values.find? (·.1 = name)).map (·.2)

/-- What the arguments lead to in an environment. -/
def outcome (environment : Environment) (arguments : List String) : Except Problem String := do
  let command ← Command.ofArguments arguments
  let service ← Service.ofEnvironment environment
  (service.perform command { refuses := true }).1

end ShadowCatalog

open ShadowCatalog in
def main (arguments : List String) : IO UInt32 := do
  match outcome (← readEnvironment) arguments with
  | .ok result =>
    IO.println result
    return 0
  | .error problem =>
    IO.eprintln problem.written
    return problem.code.exitCode.toUInt32
