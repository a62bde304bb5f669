import Mathlib.Data.List.Basic
import Mathlib.Tactic.Common
import ShadowCatalog.Proofs.Browse.JoinPlan

/-!
# Requests on tables that are called otherwise

What a request comes to hardly depends on how tables are called. If the table that is asked
for and those that its foreign keys refer to go by other names, the columns are the same,
and so is what can be said of labels before a name is found for the tables that they are
joined from (`JoinPlan.map_bare_plannedColumns`). The other names are all that changes in
what a reader is told (`BrowseQuery.renamed_compile`): the statement has other names for
tables in it, but it shows the same under the same names, and binds the same values.
-/

namespace ShadowCatalog

variable (ρ : String → String)

/-- A foreign key between tables that are called otherwise. -/
def ForeignKey.rename (key : ForeignKey) : ForeignKey :=
  { key with
    referencingTable := ρ key.referencingTable
    referencedTable := ρ key.referencedTable }

/-- What a reader is told, where tables are called otherwise. -/
def ColumnMeta.rename (info : ColumnMeta) : ColumnMeta :=
  { info with labelTable := info.labelTable.map ρ }

/-- A request on a table that is called otherwise. -/
def BrowseRequest.rename (request : BrowseRequest) : BrowseRequest :=
  { request with table := ρ request.table }

/-- The same error for a table that is called otherwise. -/
def ValidationError.rename : ValidationError → ValidationError
  | .unknownTable table => .unknownTable (ρ table)
  | .unknownSortColumn table column => .unknownSortColumn (ρ table) column
  | cause => cause

/-- The second query shows, binds and ignores the same as the first, and tells the same of
    what is shown, apart from how the tables of labels are called. -/
structure BrowseQuery.Renamed (before after : BrowseQuery) : Prop where
  outputs : after.statement.plan.selected.map (·.output) =
    before.statement.plan.selected.map (·.output)
  binds : after.binds = before.binds
  pageSize : after.pageSize = before.pageSize
  ignoredFilters : after.ignoredFilters = before.ignoredFilters
  columnMeta : after.columnMeta = before.columnMeta.map fun (name, info) =>
    (name, info.rename ρ)

/-- The second outcome is a query that shows the same as the first, or the same error. -/
inductive BrowseQuery.RenamedOutcome : Except Error BrowseQuery → Except Error BrowseQuery → Prop
  | query {before after : BrowseQuery} :
      before.Renamed ρ after → RenamedOutcome (.ok before) (.ok after)
  | invalid (cause : ValidationError) :
      RenamedOutcome (.error (.validation cause)) (.error (.validation (cause.rename ρ)))

/-! ## Values by name -/

namespace NameMap

variable {α β : Type}

theorem insert_map (f : α → β) (name : String) (value : α) (map : NameMap α) :
    insert name (f value) (map.map fun pair => (pair.1, f pair.2)) =
      (insert name value map).map fun pair => (pair.1, f pair.2) := by
  induction map with
  | nil => rfl
  | cons first rest ih =>
    simp only [List.map_cons, insert, ih]
    split
    · rfl
    · split <;> rfl

theorem ofList_map (f : α → β) (pairs : List (String × α)) :
    ofList (pairs.map fun pair => (pair.1, f pair.2)) =
      (ofList pairs).map fun pair => (pair.1, f pair.2) := by
  have hfold (map : NameMap α) :
      (pairs.map fun pair => (pair.1, f pair.2)).foldl
          (fun map pair => insert pair.1 pair.2 map) (map.map fun pair => (pair.1, f pair.2)) =
        (pairs.foldl (fun map pair => insert pair.1 pair.2 map) map).map
          fun pair => (pair.1, f pair.2) := by
    induction pairs generalizing map with
    | nil => rfl
    | cons pair pairs ih =>
      rw [List.map_cons, List.foldl_cons, List.foldl_cons, ← ih]
      exact congrArg (List.foldl _ · _) (insert_map f pair.1 pair.2 map)
  exact hfold []

end NameMap

/-! ## Plans -/

/-- A column and its label, before a name is found for the table of the label. -/
def PlannedColumn.bare (planned : PlannedColumn) : PlannedColumn where
  column := planned.column
  labelJoin := planned.labelJoin.map fun join =>
    { join with foreignKey := join.foreignKey.rename ρ, qualifier := "" }

namespace JoinPlan

variable {foreignKeys : List ForeignKey} {columns : List TrackedColumn} {plan plan' : JoinPlan}

theorem labelled?_rename (column : String) :
    labelled? (foreignKeys.map (·.rename ρ)) column =
      (labelled? foreignKeys column).map fun (key, label) => (key.rename ρ, label) := by
  induction foreignKeys with
  | nil => rfl
  | cons key keys ih =>
    simp only [labelled?] at ih ⊢
    by_cases hcolumn : key.referencingColumn = column
    · cases hlabel : key.label <;> simp_all [ForeignKey.rename]
    · simp_all [ForeignKey.rename]

/-- Where tables are called otherwise, the same is shown of them. -/
theorem map_bare_plannedColumns (qualifiers qualifiers' outputs : List String) :
    (plannedColumns (foreignKeys.map (·.rename ρ)) qualifiers' outputs columns).map
        (·.bare id) =
      (plannedColumns foreignKeys qualifiers outputs columns).map (·.bare ρ) := by
  induction columns generalizing qualifiers qualifiers' outputs with
  | nil => rfl
  | cons column columns ih =>
    rw [plannedColumns, plannedColumns, labelled?_rename]
    cases labelled? foreignKeys column.name with
    | none => exact congrArg _ (ih _ _ _)
    | some labelled => exact congrArg _ (ih _ _ _)

/-- Plans that show the same under the same names, but for how tables are called. -/
def Renamed (plan plan' : JoinPlan) : Prop :=
  plan'.columns.map (·.bare id) = plan.columns.map (·.bare ρ)

theorem renamed_ofColumns (table table' : String) (columns : List TrackedColumn)
    (foreignKeys : List ForeignKey) :
    Renamed ρ (ofColumns table columns foreignKeys)
      (ofColumns table' columns (foreignKeys.map (·.rename ρ))) :=
  map_bare_plannedColumns ρ _ _ _

/-- The names of labels are settled before those of the tables that they are joined from. -/
theorem outputs_eq (plan : JoinPlan) :
    plan.selected.map (·.output) = (plan.columns.map (·.bare ρ)).flatMap fun planned =>
      planned.column.name :: (planned.labelJoin.map (·.output)).toList := by
  rw [selected, List.map_flatMap, List.flatMap_map]
  refine List.flatMap_congr fun planned _ => ?_
  obtain ⟨column, _ | join⟩ := planned <;> rfl

theorem columnMeta_rename (plan : JoinPlan) :
    (plan.columns.flatMap PlannedColumn.columnMeta).map (fun pair => (pair.1, pair.2.rename ρ)) =
      (plan.columns.map (·.bare ρ)).flatMap PlannedColumn.columnMeta := by
  rw [List.map_flatMap, List.flatMap_map]
  refine List.flatMap_congr fun planned _ => ?_
  obtain ⟨column, _ | join⟩ := planned <;> rfl

namespace Renamed

variable {ρ}
variable (h : Renamed ρ plan plan')
include h

theorem outputs : plan'.selected.map (·.output) = plan.selected.map (·.output) := by
  rw [outputs_eq id plan', outputs_eq ρ plan, h]

theorem columnMeta :
    plan'.columnMeta = plan.columnMeta.map fun (name, info) => (name, info.rename ρ) := by
  have hsame : plan'.columns.flatMap PlannedColumn.columnMeta =
      (plan'.columns.map (·.bare id)).flatMap PlannedColumn.columnMeta := by
    rw [← columnMeta_rename id plan']
    refine (List.map_id'' (fun pair => ?_) _).symm
    simp [ColumnMeta.rename]
  rw [JoinPlan.columnMeta, hsame, h, ← columnMeta_rename ρ plan, NameMap.ofList_map]
  rfl

theorem resolve?_eq_none_iff (name : String) :
    plan'.resolve? name = none ↔ plan.resolve? name = none := by
  rw [JoinPlan.resolve?_eq_none_iff, JoinPlan.resolve?_eq_none_iff, h.outputs]

theorem conditions (index : Nat) (asked : List (String × String)) :
    (BrowseQuery.filters plan' index asked).map (·.condition) =
      (BrowseQuery.filters plan index asked).map (·.condition) := by
  induction asked generalizing index with
  | nil => rfl
  | cons filter asked ih =>
    obtain ⟨name, expression⟩ := filter
    have hnone := h.resolve?_eq_none_iff name
    rw [BrowseQuery.filters, BrowseQuery.filters]
    cases hold : plan.resolve? name with
    | none =>
      rw [hnone.2 hold]
      exact ih index
    | some ref =>
      obtain ⟨ref', hnew⟩ := Option.ne_none_iff_exists'.1 fun hnew =>
        absurd (hnone.1 hnew) (hold ▸ Option.some_ne_none ref)
      rw [hnew]
      dsimp only
      cases Condition.ofTokens? (searchTokens expression) index with
      | none => exact ih index
      | some condition => exact congrArg (condition :: ·) (ih condition.nextIndex)

theorem ignored (asked : List (String × String)) :
    BrowseQuery.ignored plan' asked = BrowseQuery.ignored plan asked := by
  refine List.filter_congr fun name _ => ?_
  rw [Bool.eq_iff_iff, Option.isNone_iff_eq_none, Option.isNone_iff_eq_none,
    h.resolve?_eq_none_iff]

end Renamed

end JoinPlan

/-! ## Queries -/

namespace BrowseQuery

variable {ρ}

/-- What a request is sorted by is the same column, or it is unknown in both plans. -/
theorem sort_rename {plan plan' : JoinPlan} (h : plan.Renamed ρ plan') (request : BrowseRequest) :
    (∃ sorted sorted', sort plan request = .ok sorted ∧
      sort plan' (request.rename ρ) = .ok sorted') ∨
    ∃ cause, sort plan request = .error cause ∧
      sort plan' (request.rename ρ) = .error (cause.rename ρ) := by
  simp only [sort, BrowseRequest.rename]
  cases request.sortColumn with
  | none => exact .inl ⟨none, none, rfl, rfl⟩
  | some name =>
    have hnone := h.resolve?_eq_none_iff name
    dsimp only
    cases hold : plan.resolve? name with
    | none =>
      rw [hnone.2 hold]
      exact .inr ⟨.unknownSortColumn request.table name, rfl, rfl⟩
    | some ref =>
      obtain ⟨ref', hnew⟩ := Option.ne_none_iff_exists'.1 fun hnew =>
        absurd (hnone.1 hnew) (hold ▸ Option.some_ne_none ref)
      rw [hnew]
      exact .inl ⟨_, _, rfl, rfl⟩

/-- A request whose offset is not negative comes to what it is sorted by. -/
theorem compile_of_checkOffset {request : BrowseRequest} {offset : Unit}
    (h : BrowseRequest.checkOffset request.offset = .ok offset) (columns : List TrackedColumn)
    (foreignKeys : List ForeignKey) (pageSize : Int) :
    let plan := JoinPlan.ofColumns request.table columns foreignKeys
    compile request columns foreignKeys pageSize = (sort plan request).map fun sort =>
      ⟨⟨plan, filters plan 1 request.filters, sort, pageSize, request.offset⟩, pageSize,
        ignored plan request.filters⟩ := by
  rw [compile, h]
  rfl

/-- A request on a table that is called otherwise comes to the same. -/
theorem renamed_compile (request : BrowseRequest) (columns : List TrackedColumn)
    (foreignKeys : List ForeignKey) (pageSize : Int) :
    RenamedOutcome ρ
      ((compile request columns foreignKeys pageSize).mapError .validation)
      ((compile (request.rename ρ) columns (foreignKeys.map (·.rename ρ)) pageSize).mapError
        .validation) := by
  have hplan := JoinPlan.renamed_ofColumns ρ request.table (ρ request.table) columns foreignKeys
  cases hoffset : BrowseRequest.checkOffset request.offset with
  | error cause =>
    have hcause : cause.rename ρ = cause := by
      rw [BrowseRequest.checkOffset] at hoffset
      split at hoffset <;> cases hoffset
      rfl
    have hinvalid := RenamedOutcome.invalid (ρ := ρ) cause
    rw [hcause] at hinvalid
    have hoffset' : BrowseRequest.checkOffset (request.rename ρ).offset = .error cause := hoffset
    rwa [compile, compile, hoffset, hoffset']
  | ok offset =>
    have hoffset' : BrowseRequest.checkOffset (request.rename ρ).offset = .ok offset := hoffset
    rw [compile_of_checkOffset hoffset, compile_of_checkOffset hoffset']
    rcases sort_rename hplan request with ⟨sorted, sorted', hsort, hsort'⟩ | ⟨cause, hsort, hsort'⟩
    · rw [hsort]
      refine hsort' ▸ ?_
      refine .query ⟨hplan.outputs, ?_, rfl, hplan.ignored _, hplan.columnMeta⟩
      have hbinds := congrArg (List.flatMap Condition.binds) (hplan.conditions 1 request.filters)
      rwa [List.flatMap_map, List.flatMap_map] at hbinds
    · rw [hsort]
      refine hsort' ▸ ?_
      exact .invalid cause

end BrowseQuery

end ShadowCatalog
