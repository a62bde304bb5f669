import ShadowCatalog.Catalog.IdSet
import ShadowCatalog.Error

/-!
# Display order

The order in which the columns of a table are shown. After the columns have
changed, a *policy* makes a new order out of the old one. The usual policy is a
stable merge (`DisplayOrder.merge`): what is still there stays where it was put,
and what is new follows by ascending id. An order given by hand must list every
column once (`DisplayOrder.validate`).
-/

namespace ShadowCatalog

/-- A rule that makes an order of the present columns out of an earlier order. -/
abbrev OrderPolicy := List ColumnId → IdSet → List ColumnId

namespace DisplayOrder

/-- The first occurrences, in order, of the elements of a list that are not yet
    placed. -/
def firstOccurrences (placed : List ColumnId) : List ColumnId → List ColumnId
  | [] => []
  | id :: ids =>
    if id ∈ placed then firstOccurrences placed ids
    else id :: firstOccurrences (id :: placed) ids

/-- The columns that are still present, in their earlier order and each once,
    and then the other present columns by ascending id. -/
def merge : OrderPolicy := fun earlier present =>
  let kept := firstOccurrences [] (earlier.filter (· ∈ present))
  kept ++ present.toList.filter (· ∉ kept)

/-- The columns that are still present, exactly as they were listed, and then
    those that were not listed by descending id. -/
def keepThenDescending : OrderPolicy := fun earlier present =>
  earlier.filter (· ∈ present) ++ (present.toList.filter (· ∉ earlier)).reverse

/-- The first id of a list that is not a column of the table, or that has been
    listed before. -/
def firstMisplaced (table : String) (columns : IdSet) (seen : List ColumnId) :
    List ColumnId → Except ValidationError Unit
  | [] => .ok ()
  | id :: ids =>
    if id ∉ columns then
      .error (.invalidValue "display_order"
        ("column " ++ toString id ++ " does not belong to " ++ table))
    else if id ∈ seen then
      .error (.invalidValue "display_order" ("column " ++ toString id ++ " listed twice"))
    else firstMisplaced table columns (id :: seen) ids

/-- A requested order lists every column of the table once. -/
def validate (table : String) (columns : IdSet) (requested : List ColumnId) :
    Except ValidationError Unit :=
  if requested.length ≠ columns.size then
    .error (.columnCountMismatch table columns.size requested.length)
  else firstMisplaced table columns [] requested

end DisplayOrder

end ShadowCatalog
