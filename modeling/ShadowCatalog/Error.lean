import ShadowCatalog.Text.Duration

/-!
# Errors

What can go wrong, by cause, and how each cause is put into words. A
`ValidationError` is what a caller asked that cannot be done; it is found before
anything is written. A `CatalogError` is a failure of the database, of the
connection to it or of the shadow catalog.
-/

namespace ShadowCatalog

/-- A request that cannot be carried out. -/
inductive ValidationError
  | requiredFieldMissing (field : String)
  | invalidValue (field reason : String)
  | invalidInteger (field value : String)
  | unknownSortColumn (table column : String)
  | unknownTable (table : String)
  | columnCountMismatch (table : String) (expected got : Nat)
  deriving DecidableEq, Repr

/-- A failure behind a request. -/
inductive CatalogError
  | queryFailed (operation reason : String)
  | writeFailed (operation table reason : String)
  | connectionFailed (reason : String)
  | rowMissing (what : String)
  | cancelled (operation : String)
  | deadlineExceeded (operation : String) (after : Duration)
  | lockPoisoned
  deriving DecidableEq, Repr

/-- Any error. -/
inductive Error
  | validation (cause : ValidationError)
  | catalog (cause : CatalogError)
  deriving DecidableEq, Repr

/-- The words for a request that cannot be carried out. -/
def ValidationError.message : ValidationError → String
  | .requiredFieldMissing field => "Required field missing: " ++ field
  | .invalidValue field reason => "Invalid value for " ++ field ++ ": " ++ reason
  | .invalidInteger field value => "Invalid integer for " ++ field ++ ": " ++ value
  | .unknownSortColumn table column => "Unknown sort column " ++ column ++ " on table " ++ table
  | .unknownTable table => "Table not tracked: " ++ table
  | .columnCountMismatch table expected got =>
    "Column count mismatch on " ++ table ++ ": expected " ++ toString expected ++ ", got " ++
      toString got

/-- The words for a failure behind a request. -/
def CatalogError.message : CatalogError → String
  | .queryFailed operation reason =>
    "Catalog query failed during " ++ operation ++ ": " ++ reason
  | .writeFailed operation table reason =>
    "Shadow catalog write failed during " ++ operation ++ " on " ++ table ++ ": " ++ reason
  | .connectionFailed reason => "Connection unavailable: " ++ reason
  | .rowMissing what => "Shadow catalog row missing: " ++ what
  | .cancelled operation => "Operation cancelled: " ++ operation
  | .deadlineExceeded operation after =>
    "Deadline exceeded for " ++ operation ++ " after " ++ after.text
  | .lockPoisoned => "Catalog lock poisoned"

namespace Error

/-- The words for an error, without the kind of error it is. -/
def cause : Error → String
  | .validation e => e.message
  | .catalog e => e.message

/-- The words for an error. -/
def message : Error → String
  | .validation e => "Validation error: " ++ e.message
  | .catalog e => "Catalog error: " ++ e.message

/-- The caller asked for what cannot be done. -/
def isClientError : Error → Bool
  | .validation _ => true
  | .catalog _ => false

end Error

end ShadowCatalog
