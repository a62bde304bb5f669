import ShadowCatalog.Browse.Request
import ShadowCatalog.Problem.Basic

/-!
# Commands

What the program can be told on its command line: to run a pass, or to show a
page of a table, with the parameters of the request given as `key=value`.
-/

namespace ShadowCatalog

open Text

/-- A command. -/
inductive Command
  | sync
  | browse (request : BrowseRequest)
  deriving DecidableEq, Repr

namespace Command

/-- How the program is used. -/
def usage : String := "Usage: tabula sync | tabula browse <table> [key=value ...]"

/-- A parameter: a key and, after the first equals sign, a value. -/
def parameter (argument : String) : Except Problem (String × String) :=
  match splitAt? '=' argument.toList with
  | some (key, value) => .ok (String.ofList key, String.ofList value)
  | none => .error (.invalidInput ("Expected key=value, got: " ++ argument))

/-- The command that arguments give. -/
def ofArguments : List String → Except Problem Command
  | ["sync"] => .ok .sync
  | ["browse"] => .error (.missingField "table")
  | "browse" :: table :: arguments => do
    let parameters ← arguments.mapM parameter
    match BrowseRequest.ofParameters (("table", table) :: parameters) with
    | .ok request => return .browse request
    | .error cause => throw (.ofValidationError cause)
  | _ => .error (.invalidInput usage)

end Command

end ShadowCatalog
