import ShadowCatalog.Browse.Query
import ShadowCatalog.Catalog.Labels
import ShadowCatalog.Catalog.Layout

/-!
# Planning a page

A request is planned against the shadow catalog as it stands: the columns of the
table are put into display order, its foreign keys are labelled, and the request
is compiled. Nothing is written, even where the stored display order lags behind
the columns.
-/

namespace ShadowCatalog

/-- The columns with the ids of a list, in its order. A column is taken once; of
    several columns with one id it is the last. -/
def takeColumns (columns : List TrackedColumn) : List ColumnId → List TrackedColumn
  | [] => []
  | id :: ids =>
    match columns.reverse.find? (·.columnId = id) with
    | none => takeColumns columns ids
    | some column => column :: takeColumns (columns.filter (·.columnId ≠ id)) ids

/-- The columns of a table in display order. -/
def orderedColumns (policy : OrderPolicy) (table : TrackedTable) :
    CatalogTask (List TrackedColumn) := do
  let columns ← ask (.trackedColumns table.tableId)
  return takeColumns columns
    (policy table.displayOrder (.ofList (columns.map (·.columnId))))

/-- The query for a request. -/
def planBrowse (policy : OrderPolicy) (request : BrowseRequest) (pageSize : Int) :
    CatalogTask BrowseQuery := do
  let table ← trackedTable request.table
  let columns ← orderedColumns policy table
  let foreignKeys ← resolveForeignKeys table.name
  match BrowseQuery.compile request columns foreignKeys pageSize with
  | .ok query => return query
  | .error cause => throw (.validation cause)

end ShadowCatalog
