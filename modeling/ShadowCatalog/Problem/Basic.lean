import ShadowCatalog.Error
import ShadowCatalog.Json.Basic

/-!
# Problems

What a caller is told when something goes wrong: a code, a message, and details
where there are some. A request that cannot be carried out is described in full;
a failure behind it is not, as its cause is not the caller's business.
-/

namespace ShadowCatalog

/-- What kind of problem it is. -/
inductive ProblemCode
  | invalidInput
  | missingField
  | invalidRange
  | invalidFormat
  | unknownSortColumn
  | tableNotFound
  | internalError
  | databaseError
  | serviceUnavailable
  | connectionPoolExhausted
  | timeout
  | cancelled
  deriving DecidableEq, Repr

namespace ProblemCode

/-- All codes. -/
def all : List ProblemCode :=
  [.invalidInput, .missingField, .invalidRange, .invalidFormat, .unknownSortColumn,
    .tableNotFound, .internalError, .databaseError, .serviceUnavailable,
    .connectionPoolExhausted, .timeout, .cancelled]

/-- The name of a code in messages. -/
def name : ProblemCode → String
  | .invalidInput => "InvalidInput"
  | .missingField => "MissingField"
  | .invalidRange => "InvalidRange"
  | .invalidFormat => "InvalidFormat"
  | .unknownSortColumn => "UnknownSortColumn"
  | .tableNotFound => "TableNotFound"
  | .internalError => "InternalError"
  | .databaseError => "DatabaseError"
  | .serviceUnavailable => "ServiceUnavailable"
  | .connectionPoolExhausted => "ConnectionPoolExhausted"
  | .timeout => "Timeout"
  | .cancelled => "Cancelled"

/-- The name of a code in JSON. -/
def tag : ProblemCode → String
  | .invalidInput => "INVALID_INPUT"
  | .missingField => "MISSING_FIELD"
  | .invalidRange => "INVALID_RANGE"
  | .invalidFormat => "INVALID_FORMAT"
  | .unknownSortColumn => "UNKNOWN_SORT_COLUMN"
  | .tableNotFound => "TABLE_NOT_FOUND"
  | .internalError => "INTERNAL_ERROR"
  | .databaseError => "DATABASE_ERROR"
  | .serviceUnavailable => "SERVICE_UNAVAILABLE"
  | .connectionPoolExhausted => "CONNECTION_POOL_EXHAUSTED"
  | .timeout => "TIMEOUT"
  | .cancelled => "CANCELLED"

/-- The code with a name in JSON. -/
def ofTag? (tag : String) : Option ProblemCode := all.find? (·.tag = tag)

theorem ofTag?_tag (code : ProblemCode) : ofTag? code.tag = some code := by
  cases code <;> decide

/-- The caller asked for what cannot be done. -/
def isClientError : ProblemCode → Bool
  | .invalidInput | .missingField | .invalidRange | .invalidFormat | .unknownSortColumn
  | .tableNotFound => true
  | _ => false

/-- The status with which a command ends. -/
def exitCode : ProblemCode → Nat
  | .invalidInput | .missingField | .invalidRange | .invalidFormat | .unknownSortColumn
  | .tableNotFound => 64
  | .serviceUnavailable | .connectionPoolExhausted => 69
  | .internalError | .databaseError => 70
  | .timeout | .cancelled => 75

/-- The message where nothing more is known. -/
def defaultMessage : ProblemCode → String
  | .invalidInput => "Invalid input"
  | .missingField => "Required field missing"
  | .invalidRange => "Value out of range"
  | .invalidFormat => "Invalid format"
  | .unknownSortColumn => "Unknown sort column"
  | .tableNotFound => "Table not found"
  | .internalError => "Internal error"
  | .databaseError => "Database operation failed"
  | .serviceUnavailable => "Database unavailable"
  | .connectionPoolExhausted => "Connection pool exhausted"
  | .timeout => "Operation timed out"
  | .cancelled => "Operation cancelled"

end ProblemCode

/-- What a caller is told. -/
structure Problem where
  code : ProblemCode
  message : String
  details : Option Json := none

namespace Problem

/-- A problem of which no more is known than its code. -/
def ofCode (code : ProblemCode) : Problem := ⟨code, code.defaultMessage, none⟩

/-- The problem on one line. -/
def text (p : Problem) : String := p.code.name ++ ": " ++ p.message

/-! ## Common problems -/

/-- A request that makes no sense. -/
def invalidInput (message : String) : Problem := ⟨.invalidInput, message, none⟩

/-- A field that is not there. -/
def missingField (field : String) : Problem :=
  ⟨.missingField, "Required field '" ++ field ++ "' is missing", none⟩

/-- A number that is too small or too large. -/
def invalidRange (field : String) (least greatest : Int) : Problem :=
  ⟨.invalidRange, "Field '" ++ field ++ "' must be between " ++ toString least ++ " and " ++
    toString greatest, none⟩

/-- A field that cannot be read. -/
def invalidFormat (field expected : String) : Problem :=
  ⟨.invalidFormat, "Field '" ++ field ++ "' has invalid format, expected " ++ expected, none⟩

/-- A table that is not tracked. -/
def tableNotFound (table : String) : Problem :=
  ⟨.tableNotFound, "Table '" ++ table ++ "' is not tracked", none⟩

/-- A failure of the program. -/
def internalError (message : String) : Problem := ⟨.internalError, message, none⟩

/-- A failure of the database. -/
def databaseError (message : String) : Problem := ⟨.databaseError, message, none⟩

/-- A database that cannot be reached. -/
def serviceUnavailable (message : String) : Problem := ⟨.serviceUnavailable, message, none⟩

/-- No connection came free in time. -/
def connectionPoolExhausted : Problem := ofCode .connectionPoolExhausted

/-- An operation that took too long. -/
def timeout (operation : String) : Problem :=
  ⟨.timeout, "Operation '" ++ operation ++ "' timed out", none⟩

/-- An operation that was broken off. -/
def cancelled (operation : String) : Problem :=
  ⟨.cancelled, "Operation '" ++ operation ++ "' was cancelled", none⟩

/-! ## The problem that an error makes -/

/-- What is said of a request that cannot be carried out. -/
def ofValidationError (cause : ValidationError) : Problem :=
  match cause with
  | .requiredFieldMissing field => missingField field
  | .invalidInteger .. => ⟨.invalidFormat, cause.message, none⟩
  | .invalidValue .. => invalidInput cause.message
  | .columnCountMismatch table expected got =>
    ⟨.invalidInput, cause.message, some (.object
      [("table", .string table), ("expected", .nat expected), ("got", .nat got)])⟩
  | .unknownSortColumn table column =>
    ⟨.unknownSortColumn, cause.message, some (.object
      [("table", .string table), ("column", .string column)])⟩
  | .unknownTable table => tableNotFound table

/-- What is said of a failure behind a request. -/
def ofCatalogError : CatalogError → Problem
  | .cancelled operation => cancelled operation
  | .deadlineExceeded operation _ => timeout operation
  | .connectionFailed _ => serviceUnavailable "Database connection unavailable"
  | .queryFailed .. => databaseError "Database operation failed"
  | .writeFailed .. => databaseError "Database operation failed"
  | .rowMissing _ => internalError "Shadow catalog is inconsistent"
  | .lockPoisoned => internalError "Shadow catalog is inconsistent"

/-- What is said of an error. -/
def ofError : Error → Problem
  | .validation cause => ofValidationError cause
  | .catalog cause => ofCatalogError cause

end Problem

end ShadowCatalog
