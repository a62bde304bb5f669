import ShadowCatalog.Browse.JoinPlan
import ShadowCatalog.Browse.Request
import ShadowCatalog.Search.Condition
import ShadowCatalog.Search.Expression

/-!
# Browse queries

A request on a table with known columns and foreign keys is compiled into one
statement and the values for its parameters. A filter whose name stands for
nothing is ignored, and reported as such; a sort column that stands for nothing,
and a negative offset, are errors. The parameters are numbered through all
filters, in the order of the filters.
-/

namespace ShadowCatalog

/-- A condition on a column or label. -/
structure Filter where
  ref : ColumnRef
  condition : Condition
  deriving DecidableEq, Repr

/-- The filter as an expression. -/
def Filter.sql (filter : Filter) : Sql := filter.condition.sql filter.ref.sql

/-- A select statement. -/
structure Statement where
  plan : JoinPlan
  filters : List Filter
  sort : Option (ColumnRef × SortOrder)
  limit : Int
  offset : Int
  deriving DecidableEq, Repr

namespace Statement

/-- The statement as fragments. -/
def sql (statement : Statement) : Sql :=
  .fixed "SELECT " :: Sql.separated ", " (statement.plan.selected.map Selected.sql) ++
    [.fixed " FROM ", .name statement.plan.table] ++
    statement.plan.joins.flatMap (.fixed " " :: ·) ++
    (if statement.filters.isEmpty then []
      else .fixed " WHERE " :: Sql.separated " AND " (statement.filters.map Filter.sql)) ++
    (match statement.sort with
      | none => []
      | some (ref, order) =>
        .fixed " ORDER BY " :: ref.sql ++ [.fixed (" " ++ order.word)]) ++
    [.fixed " LIMIT ", .number statement.limit, .fixed " OFFSET ", .number statement.offset]

/-- The values of the parameters, in order. -/
def binds (statement : Statement) : List String :=
  statement.filters.flatMap (·.condition.binds)

end Statement

/-- A compiled request. -/
structure BrowseQuery where
  statement : Statement
  pageSize : Int
  /-- The names of the filters that stand for nothing, in order. -/
  ignoredFilters : List String
  deriving DecidableEq, Repr

namespace BrowseQuery

variable (query : BrowseQuery)

/-- The text of the statement. -/
def text : String := query.statement.sql.text

/-- The values of the parameters, in order. -/
def binds : List String := query.statement.binds

/-- What a reader is told about the output names. -/
def columnMeta : NameMap ColumnMeta := query.statement.plan.columnMeta

/-- The names, of those filtered by, that stand for nothing. -/
def ignored (plan : JoinPlan) (filters : List (String × String)) : List String :=
  (filters.map (·.1)).filter fun name => (plan.resolve? name).isNone

/-- The filters of a plan, their parameters numbered from `index`. -/
def filters (plan : JoinPlan) (index : Nat) : List (String × String) → List Filter
  | [] => []
  | (name, expression) :: rest =>
    match plan.resolve? name with
    | none => filters plan index rest
    | some ref =>
      match Condition.ofTokens? (searchTokens expression) index with
      | none => filters plan index rest
      | some condition => ⟨ref, condition⟩ :: filters plan condition.nextIndex rest

/-- What to sort by, if anything. -/
def sort (plan : JoinPlan) (request : BrowseRequest) :
    Except ValidationError (Option (ColumnRef × SortOrder)) :=
  match request.sortColumn with
  | none => .ok none
  | some name =>
    match plan.resolve? name with
    | none => .error (.unknownSortColumn request.table name)
    | some ref => .ok (some (ref, request.sortOrder))

/-- The request compiled, for a table with these columns, in display order, and
    these foreign keys. -/
def compile (request : BrowseRequest) (columns : List TrackedColumn)
    (foreignKeys : List ForeignKey) (pageSize : Int) : Except ValidationError BrowseQuery := do
  BrowseRequest.checkOffset request.offset
  let plan := JoinPlan.ofColumns request.table columns foreignKeys
  let sort ← sort plan request
  return {
    statement := {
      plan
      filters := filters plan 1 request.filters
      sort
      limit := pageSize
      offset := request.offset }
    pageSize
    ignoredFilters := ignored plan request.filters }

end BrowseQuery

end ShadowCatalog
