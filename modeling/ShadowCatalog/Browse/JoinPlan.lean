import ShadowCatalog.Browse.DataType
import ShadowCatalog.Browse.NameMap
import ShadowCatalog.Browse.Naming
import ShadowCatalog.Catalog.Basic
import ShadowCatalog.Sql.Fragment

/-!
# Join plans

What a browse statement shows of a table. Each column is shown, in the given
order, and after a column whose foreign key has a label, the label is shown too:
the referenced table is joined under a name of its own, and the label gets an
output name of its own. A join plan settles these names once; the select list,
the joins and the meaning of the output names are read off it.

* `JoinPlan.selected`: what is shown, in order;
* `JoinPlan.joins`: the joined tables;
* `JoinPlan.resolve?`: what an output name stands for;
* `JoinPlan.columnMeta`: what a reader is told about each output name.
-/

namespace ShadowCatalog

/-- A column of a table that goes by the name `qualifier` in the statement. -/
structure ColumnRef where
  qualifier : String
  column : String
  deriving DecidableEq, Repr

/-- The column as an expression. -/
def ColumnRef.sql (ref : ColumnRef) : Sql :=
  [.name ref.qualifier, .fixed ".", .name ref.column]

/-- An output column. -/
structure Selected where
  ref : ColumnRef
  dataType : String
  output : String
  deriving DecidableEq, Repr

/-- The output column in the select list. Values that are not read as they are
    are turned into text. -/
def Selected.sql (selected : Selected) : Sql :=
  selected.ref.sql ++ (if isNative selected.dataType then [] else [.fixed "::text"]) ++
    [.fixed " AS ", .name selected.output]

/-- A label shown after the column of its foreign key. -/
structure LabelJoin where
  foreignKey : ForeignKey
  label : Label
  /-- The name by which the joined table goes. -/
  qualifier : String
  /-- The name under which the label is shown. -/
  output : String
  deriving DecidableEq, Repr

namespace LabelJoin

/-- The label in the joined table. -/
def ref (join : LabelJoin) : ColumnRef := ⟨join.qualifier, join.label.name⟩

/-- The label as an output column. -/
def selected (join : LabelJoin) : Selected := ⟨join.ref, join.label.dataType, join.output⟩

/-- The join that reaches the label from the column of the foreign key. -/
def sql (source : ColumnRef) (join : LabelJoin) : Sql :=
  [.fixed "LEFT JOIN ", .name join.foreignKey.referencedTable, .fixed " AS ",
    .name join.qualifier, .fixed " ON "] ++ source.sql ++ .fixed " = " ::
    (ColumnRef.mk join.qualifier join.foreignKey.referencedColumn).sql

end LabelJoin

/-- A column of the table, and the label shown after it. -/
structure PlannedColumn where
  column : TrackedColumn
  labelJoin : Option LabelJoin
  deriving DecidableEq, Repr

/-- What a statement shows of a table. -/
structure JoinPlan where
  table : String
  columns : List PlannedColumn
  deriving DecidableEq, Repr

/-- What a reader is told about an output column. -/
structure ColumnMeta where
  dataType : String
  labelTable : Option String := none
  labelColumn : Option String := none
  deriving DecidableEq, Repr

/-- What a reader is told about one column and its label. -/
def PlannedColumn.columnMeta (planned : PlannedColumn) : List (String × ColumnMeta) :=
  match planned.labelJoin with
  | none => [(planned.column.name, { dataType := planned.column.dataType })]
  | some join =>
    [(join.output, { dataType := join.label.dataType }),
      (planned.column.name,
        { dataType := planned.column.dataType
          labelTable := some join.foreignKey.referencedTable
          labelColumn := some join.label.name })]

namespace JoinPlan

/-- The first foreign key of a column that has a label. -/
def labelled? (foreignKeys : List ForeignKey) (column : String) : Option (ForeignKey × Label) :=
  (foreignKeys.filter (·.referencingColumn = column)).findSome? fun key =>
    key.label.map fun label => (key, label)

/-- The join for a label, when the names in `qualifiers` stand for tables and
    those in `outputs` are shown. -/
def labelJoin (qualifiers outputs : List String) (column : String) (key : ForeignKey)
    (label : Label) : LabelJoin where
  foreignKey := key
  label
  qualifier := freshName key.referencedTable qualifiers
  output :=
    let usual := labelName column
    freshName (if usual ∈ outputs then column ++ "_name" else usual) outputs

/-- The columns with their labels, when the names in `qualifiers` stand for
    tables and those in `outputs` are shown. -/
def plannedColumns (foreignKeys : List ForeignKey) (qualifiers outputs : List String) :
    List TrackedColumn → List PlannedColumn
  | [] => []
  | column :: columns =>
    match labelled? foreignKeys column.name with
    | none => ⟨column, none⟩ :: plannedColumns foreignKeys qualifiers outputs columns
    | some (key, label) =>
      let join := labelJoin qualifiers outputs column.name key label
      ⟨column, some join⟩ ::
        plannedColumns foreignKeys (join.qualifier :: qualifiers) (join.output :: outputs) columns

/-- The plan for the columns of a table, in the order given. -/
def ofColumns (table : String) (columns : List TrackedColumn) (foreignKeys : List ForeignKey) :
    JoinPlan where
  table
  columns := plannedColumns foreignKeys [table] (columns.map (·.name)) columns

variable (plan : JoinPlan)

/-- A column of the table itself. -/
def ref (column : String) : ColumnRef := ⟨plan.table, column⟩

/-- The label joins, in order. -/
def labelJoins : List LabelJoin := plan.columns.filterMap (·.labelJoin)

/-- What is shown, in order. -/
def selected : List Selected :=
  plan.columns.flatMap fun planned =>
    ⟨plan.ref planned.column.name, planned.column.dataType, planned.column.name⟩ ::
      (planned.labelJoin.map LabelJoin.selected).toList

/-- The joined tables, in order. -/
def joins : List Sql :=
  plan.columns.filterMap fun planned =>
    planned.labelJoin.map (LabelJoin.sql (plan.ref planned.column.name))

/-- The columns of the table by name. -/
def columnRefs : NameMap ColumnRef :=
  .ofList (plan.columns.map fun planned =>
    (planned.column.name, plan.ref planned.column.name))

/-- The labels by the names under which they are shown. -/
def labelRefs : NameMap ColumnRef :=
  .ofList (plan.labelJoins.map fun join => (join.output, join.ref))

/-- What an output name stands for: a column of the table, or a label. -/
def resolve? (name : String) : Option ColumnRef :=
  (plan.columnRefs.get? name).or (plan.labelRefs.get? name)

/-- What a reader is told about the output names. -/
def columnMeta : NameMap ColumnMeta :=
  .ofList (plan.columns.flatMap PlannedColumn.columnMeta)

end JoinPlan

end ShadowCatalog
