import ShadowCatalog.Error
import ShadowCatalog.Text.Blank
import ShadowCatalog.Text.Integer
import ShadowCatalog.Text.Letters

/-!
# Browse requests

What a caller asks to see: a page of one table, filtered by search expressions
on its columns or labels, sorted by one of them, from an offset on. A request
is decoded from named parameters. Four names have a meaning of their own, with
the last value given deciding; any other parameter is a filter.
-/

namespace ShadowCatalog

open Text

/-- The direction of sorting. -/
inductive SortOrder
  | ascending
  | descending
  deriving DecidableEq, Repr

namespace SortOrder

/-- The direction that a text asks for: descending if it is `desc`, in letters of
    either case and with any blanks around, and otherwise ascending. -/
def ofText (text : String) : SortOrder :=
  if sameLetters (trim text.toList) ['d', 'e', 's', 'c'] then .descending else .ascending

/-- The word for a direction. -/
def word : SortOrder → String
  | .ascending => "ASC"
  | .descending => "DESC"

end SortOrder

/-- A page that a caller asks to see. -/
structure BrowseRequest where
  table : String
  /-- The filters: the name of a column or label, and a search expression. -/
  filters : List (String × String) := []
  sortColumn : Option String := none
  sortOrder : SortOrder := .ascending
  offset : Int := 0
  deriving DecidableEq, Repr

namespace BrowseRequest

/-- An offset is not negative. -/
def checkOffset (offset : Int) : Except ValidationError Unit :=
  if offset < 0 then .error (.invalidValue "offset" "must not be negative") else .ok ()

/-- The offset that a text gives; a blank text gives 0. -/
def offset? (text : String) : Except ValidationError Int :=
  match trim text.toList with
  | [] => .ok 0
  | digits =>
    match signed? 64 digits with
    | none => .error (.invalidInteger "offset" (String.ofList digits))
    | some offset => (checkOffset offset).map fun _ => offset

/-- The request with one more parameter. -/
def withParameter (request : BrowseRequest) (name value : String) :
    Except ValidationError BrowseRequest :=
  if name = "table" then .ok { request with table := trimmed value }
  else if name = "sort_column" then
    .ok { request with sortColumn := (some (trimmed value)).filter (· ≠ "") }
  else if name = "sort_order" then .ok { request with sortOrder := .ofText value }
  else if name = "offset" then
    (offset? value).map fun offset => { request with offset }
  else .ok { request with filters := request.filters ++ [(name, value)] }

/-- The request with more parameters. -/
def withParameters (request : BrowseRequest) :
    List (String × String) → Except ValidationError BrowseRequest
  | [] => .ok request
  | (name, value) :: rest =>
    match request.withParameter name value with
    | .ok next => next.withParameters rest
    | .error cause => .error cause

/-- The request that parameters make. It names a table. -/
def ofParameters (parameters : List (String × String)) : Except ValidationError BrowseRequest :=
  match withParameters { table := "" } parameters with
  | .ok request =>
    if request.table = "" then .error (.requiredFieldMissing "table") else .ok request
  | .error cause => .error cause

end BrowseRequest

end ShadowCatalog
