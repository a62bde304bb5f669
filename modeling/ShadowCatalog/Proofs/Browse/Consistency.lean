import Mathlib.Data.List.Nodup
import Mathlib.Data.List.Perm.Lattice
import Mathlib.Tactic.Common
import ShadowCatalog.Proofs.Browse.JoinPlan

/-!
# A join plan agrees with itself

A join plan is read in several ways: as a select list, as a list of joins, as the meaning
of the output names, and as what a reader is told about these. For a table whose columns
have different names, all of them speak of the same things (`JoinPlan.Consistent`).

The names of the labels are free of those of the columns and of each other
(`JoinPlan.nodup_append_outputs`). What is shown is therefore, up to the order, the columns
and the labels under different names (`JoinPlan.perm_selected`), which is what the maps by
name hold.
-/

namespace ShadowCatalog

namespace JoinPlan

variable {table : String} {columns : List TrackedColumn} {foreignKeys : List ForeignKey}

/-- What is shown under a name is what the name stands for, wherever it is used. -/
structure ShownAsMeant (plan : JoinPlan) (selected : Selected) : Prop where
  resolved : plan.resolve? selected.output = some selected.ref
  sql : ∃ info, plan.columnMeta.get? selected.output = some info ∧
    selected.sql = selected.ref.sql ++
      (if isNative info.dataType then [] else [.fixed "::text"]) ++
      [.fixed " AS ", .name selected.output]
  sort : ∀ request : BrowseRequest, request.sortColumn = some selected.output →
    BrowseQuery.sort plan request = .ok (some (selected.ref, request.sortOrder))
  filters : ∀ index expression,
    BrowseQuery.filters plan index [(selected.output, expression)] =
      ((Condition.ofTokens? (searchTokens expression) index).map (Filter.mk selected.ref)).toList

/-- The parts of a plan for the columns of a table agree with each other. -/
structure Consistent (table : String) (columns : List TrackedColumn)
    (foreignKeys : List ForeignKey) (plan : JoinPlan) : Prop where
  listed : plan.columns.map (·.column) = columns
  /-- The first foreign key of a column with a label decides on what follows the column. -/
  foreignKey : ∀ planned ∈ plan.columns, planned.labelJoin.map (·.foreignKey) =
    foreignKeys.find? fun key => key.referencingColumn = planned.column.name ∧ key.label.isSome
  label : ∀ planned ∈ plan.columns, ∀ join ∈ planned.labelJoin,
    join.foreignKey.label = some join.label
  selected : plan.selected = plan.columns.flatMap fun planned =>
    shown table planned.column :: planned.labelJoin.toList.map LabelJoin.selected
  outputs : (plan.selected.map (·.output)).Nodup
  described : (plan.columnMeta.map (·.1)).Perm (plan.selected.map (·.output))
  columnNames : (plan.columnRefs.map (·.1)).Perm (columns.map (·.name))
  union : (plan.columnRefs.map (·.1) ++ plan.labelRefs.map (·.1)).Perm
    (plan.selected.map (·.output))
  shownAsMeant : ∀ selected ∈ plan.selected, plan.ShownAsMeant selected
  qualifiers : (table :: plan.labelJoins.map (·.qualifier)).Nodup
  joins : plan.joins = plan.columns.flatMap fun planned =>
    planned.labelJoin.toList.map fun join =>
      [.fixed "LEFT JOIN ", .name join.foreignKey.referencedTable, .fixed " AS ",
        .name join.qualifier, .fixed " ON ", .name table, .fixed ".", .name planned.column.name,
        .fixed " = ", .name join.qualifier, .fixed ".", .name join.foreignKey.referencedColumn]
  labelRefs : ∀ planned ∈ plan.columns, ∀ join ∈ planned.labelJoin,
    plan.labelRefs.get? join.output = some ⟨join.qualifier, join.label.name⟩

/-! ## The label of a column -/

/-- The first foreign key of a column that has a label. -/
theorem map_labelled? (column : String) :
    (labelled? foreignKeys column).map (·.1) =
      foreignKeys.find? fun key => key.referencingColumn = column ∧ key.label.isSome := by
  rw [labelled?]
  induction foreignKeys with
  | nil => rfl
  | cons key keys ih =>
    by_cases hcolumn : key.referencingColumn = column
    · cases hlabel : key.label <;> simp_all
    · simp_all

/-- A column is followed by the label of its first foreign key that has one. -/
theorem map_labelJoin_of_mem_plannedColumns {qualifiers outputs : List String}
    {planned : PlannedColumn}
    (h : planned ∈ plannedColumns foreignKeys qualifiers outputs columns) :
    planned.labelJoin.map (fun join => (join.foreignKey, join.label)) =
      labelled? foreignKeys planned.column.name := by
  fun_induction plannedColumns foreignKeys qualifiers outputs columns with
  | case1 => cases h
  | case2 qualifiers outputs column columns hnone ih =>
    rcases List.mem_cons.1 h with rfl | h
    · exact hnone.symm
    · exact ih h
  | case3 qualifiers outputs column columns key label hsome first ih =>
    rcases List.mem_cons.1 h with rfl | h
    · exact hsome.symm
    · exact ih h

/-! ## The output names -/

/-- The names of labels are free of the other names, and differ from each other. -/
theorem nodup_append_outputs {outputs : List String} (qualifiers : List String)
    (h : outputs.Nodup) :
    (outputs ++ ((plannedColumns foreignKeys qualifiers outputs columns).filterMap
      (·.labelJoin)).map (·.output)).Nodup := by
  fun_induction plannedColumns foreignKeys qualifiers outputs columns with
  | case1 => simpa using h
  | case2 qualifiers outputs column columns hnone ih => exact ih h
  | case3 qualifiers outputs column columns key label hsome first ih =>
    exact List.perm_middle.nodup_iff.2 (ih (List.nodup_cons.2 ⟨freshName_not_mem _ _, h⟩))

section

variable (plan : JoinPlan)

/-- Up to the order, the columns are shown and the labels are. -/
theorem perm_selected :
    (plan.columns.map (fun planned => shown plan.table planned.column) ++
      plan.labelJoins.map LabelJoin.selected).Perm plan.selected := by
  have hlabels : plan.labelJoins.map LabelJoin.selected = plan.columns.flatMap fun planned =>
      (planned.labelJoin.map LabelJoin.selected).toList := by
    rw [labelJoins, List.map_filterMap, List.filterMap_eq_flatMap_toList]
  rw [hlabels, List.map_eq_flatMap]
  exact List.flatMap_append_perm _ _ _

/-- A reader is told the type of each output column. -/
theorem perm_columnMeta :
    ((plan.columns.flatMap PlannedColumn.columnMeta).map fun pair => (pair.1, pair.2.dataType)).Perm
      (plan.selected.map fun selected => (selected.output, selected.dataType)) := by
  rw [selected, List.map_flatMap, List.map_flatMap]
  refine List.Perm.flatMap_left _ fun planned _ => ?_
  obtain ⟨column, _ | join⟩ := planned
  · exact .refl _
  · exact .swap _ _ _

end

/-- The output names are those of the columns and of the labels. -/
theorem perm_outputs :
    (columns.map (·.name) ++ (ofColumns table columns foreignKeys).labelJoins.map (·.output)).Perm
      ((ofColumns table columns foreignKeys).selected.map (·.output)) := by
  have hperm := (perm_selected (ofColumns table columns foreignKeys)).map (·.output)
  have hlisted : (ofColumns table columns foreignKeys).columns.map (·.column) = columns :=
    map_column_columns
  have hcolumns := congrArg (List.map TrackedColumn.name) hlisted
  rw [List.map_append, List.map_map, List.map_map] at hperm
  rw [List.map_map] at hcolumns
  exact hcolumns ▸ hperm

/-! ## Names and what they stand for -/

theorem columnRefs_eq :
    (ofColumns table columns foreignKeys).columnRefs =
      .ofList (columns.map fun column => (column.name, ⟨table, column.name⟩)) := by
  have hlisted : (ofColumns table columns foreignKeys).columns.map (·.column) = columns :=
    map_column_columns
  conv_rhs => rw [← hlisted, List.map_map]
  rfl

section

variable (hnames : columns.Pairwise (·.name ≠ ·.name))
include hnames

variable (table foreignKeys) in
theorem nodup_names :
    (columns.map (·.name) ++
      (ofColumns table columns foreignKeys).labelJoins.map (·.output)).Nodup :=
  nodup_append_outputs [table] (List.pairwise_map.2 hnames)

theorem nodup_outputs : ((ofColumns table columns foreignKeys).selected.map (·.output)).Nodup :=
  perm_outputs.nodup_iff.1 (nodup_names _ _ hnames)

variable (table) in
theorem nodup_columnRefs :
    ((columns.map fun column =>
      (column.name, ColumnRef.mk table column.name)).map (·.1)).Nodup := by
  rw [List.map_map]
  exact List.pairwise_map.2 hnames

variable (table foreignKeys) in
theorem nodup_labelRefs :
    (((ofColumns table columns foreignKeys).labelJoins.map fun join =>
      (join.output, join.ref)).map (·.1)).Nodup := by
  rw [List.map_map]
  exact (List.nodup_append.1 (nodup_names _ _ hnames)).2.1

theorem nodup_columnMeta :
    (((ofColumns table columns foreignKeys).columns.flatMap PlannedColumn.columnMeta).map
      (·.1)).Nodup := by
  have hperm := (perm_columnMeta (ofColumns table columns foreignKeys)).map (·.1)
  rw [List.map_map, List.map_map] at hperm
  exact hperm.nodup_iff.2 (nodup_outputs hnames)

/-- The names of the columns stand for columns. -/
theorem map_fst_columnRefs_perm :
    ((ofColumns table columns foreignKeys).columnRefs.map (·.1)).Perm (columns.map (·.name)) := by
  have hperm := (NameMap.ofList_perm (nodup_columnRefs table hnames)).map (·.1)
  rw [List.map_map] at hperm
  exact columnRefs_eq ▸ hperm

/-- The other names stand for labels. -/
theorem map_fst_labelRefs_perm :
    ((ofColumns table columns foreignKeys).labelRefs.map (·.1)).Perm
      ((ofColumns table columns foreignKeys).labelJoins.map (·.output)) := by
  have hperm := (NameMap.ofList_perm (nodup_labelRefs table foreignKeys hnames)).map (·.1)
  rwa [List.map_map] at hperm

/-- A reader is told about the names under which something is shown. -/
theorem map_fst_columnMeta_perm :
    ((ofColumns table columns foreignKeys).columnMeta.map (·.1)).Perm
      ((ofColumns table columns foreignKeys).selected.map (·.output)) := by
  have hperm := (perm_columnMeta (ofColumns table columns foreignKeys)).map (·.1)
  rw [List.map_map, List.map_map] at hperm
  exact ((NameMap.ofList_perm (nodup_columnMeta hnames)).map _).trans hperm

/-- A reader is told the type of what is shown. -/
theorem get?_columnMeta {selected : Selected}
    (h : selected ∈ (ofColumns table columns foreignKeys).selected) :
    ∃ info, (ofColumns table columns foreignKeys).columnMeta.get? selected.output = some info ∧
      info.dataType = selected.dataType := by
  have hmem := (perm_columnMeta (ofColumns table columns foreignKeys)).mem_iff.2
    (List.mem_map_of_mem h)
  obtain ⟨⟨name, info⟩, hinfo, heq⟩ := List.mem_map.1 hmem
  obtain ⟨rfl, htype⟩ := Prod.mk.inj heq
  exact ⟨info, NameMap.get?_ofList_of_mem (nodup_columnMeta hnames) hinfo, htype⟩

/-- A column stands for itself. -/
theorem get?_columnRefs {column : TrackedColumn} (h : column ∈ columns) :
    (ofColumns table columns foreignKeys).columnRefs.get? column.name =
      some ⟨table, column.name⟩ := by
  rw [columnRefs_eq]
  exact NameMap.get?_ofList_of_mem (nodup_columnRefs _ hnames) (List.mem_map_of_mem h)

/-- A label stands for the column of the joined table. -/
theorem get?_labelRefs {join : LabelJoin}
    (h : join ∈ (ofColumns table columns foreignKeys).labelJoins) :
    (ofColumns table columns foreignKeys).labelRefs.get? join.output = some join.ref :=
  NameMap.get?_ofList_of_mem (nodup_labelRefs _ _ hnames)
    (List.mem_map_of_mem (f := fun join : LabelJoin => (join.output, join.ref)) h)

theorem get?_columnRefs_output {join : LabelJoin}
    (h : join ∈ (ofColumns table columns foreignKeys).labelJoins) :
    (ofColumns table columns foreignKeys).columnRefs.get? join.output = none := by
  have hdisjoint := (List.nodup_append.1 (nodup_names table foreignKeys hnames)).2.2
  rw [columnRefs_eq, NameMap.get?_ofList_eq_none_iff, List.map_map]
  exact fun hmem => hdisjoint _ hmem _ (List.mem_map_of_mem h) rfl

theorem resolve?_output {selected : Selected}
    (h : selected ∈ (ofColumns table columns foreignKeys).selected) :
    (ofColumns table columns foreignKeys).resolve? selected.output = some selected.ref := by
  rcases mem_selected.1 h with ⟨planned, hplanned, rfl⟩ | ⟨join, hjoin, rfl⟩
  · have hmem := List.mem_map_of_mem (f := PlannedColumn.column) hplanned
    rw [map_column_columns] at hmem
    exact Option.or_eq_some_iff.2 (.inl (get?_columnRefs hnames hmem))
  · exact Option.or_eq_some_iff.2
      (.inr ⟨get?_columnRefs_output hnames hjoin, get?_labelRefs hnames hjoin⟩)

theorem shownAsMeant {selected : Selected}
    (h : selected ∈ (ofColumns table columns foreignKeys).selected) :
    (ofColumns table columns foreignKeys).ShownAsMeant selected where
  resolved := resolve?_output hnames h
  sql := by
    obtain ⟨info, hinfo, htype⟩ := get?_columnMeta hnames h
    exact ⟨info, hinfo, htype ▸ rfl⟩
  sort request hrequest := by simp only [BrowseQuery.sort, hrequest, resolve?_output hnames h]
  filters index expression := by
    simp only [BrowseQuery.filters, resolve?_output hnames h]
    cases Condition.ofTokens? (searchTokens expression) index <;> rfl

end

/-- A join plan for columns with different names agrees with itself. -/
theorem consistent_ofColumns (table : String) (columns : List TrackedColumn)
    (foreignKeys : List ForeignKey) (hnames : columns.Pairwise (·.name ≠ ·.name)) :
    Consistent table columns foreignKeys (ofColumns table columns foreignKeys) where
  listed := map_column_columns
  foreignKey planned hplanned := by
    rw [← map_labelled?, ← map_labelJoin_of_mem_plannedColumns hplanned, Option.map_map]
    rfl
  label planned hplanned join hjoin := (labelledBy_of_mem_columns hplanned hjoin).1.label
  selected := by
    refine List.flatMap_congr fun planned _ => ?_
    rw [Option.toList_map]
    rfl
  outputs := nodup_outputs hnames
  described := map_fst_columnMeta_perm hnames
  columnNames := map_fst_columnRefs_perm hnames
  union :=
    ((map_fst_columnRefs_perm hnames).append (map_fst_labelRefs_perm hnames)).trans perm_outputs
  shownAsMeant _ := shownAsMeant hnames
  qualifiers := by
    have hnodup : ((ofColumns table columns foreignKeys).tables.map (·.1)).Nodup := nodup_tables
    rwa [tables, List.map_cons, List.map_map] at hnodup
  joins := by
    rw [joins, List.filterMap_eq_flatMap_toList]
    refine List.flatMap_congr fun planned _ => ?_
    rw [Option.toList_map]
    rfl
  labelRefs planned hplanned join hjoin :=
    get?_labelRefs hnames (List.mem_filterMap.2 ⟨planned, hplanned, hjoin⟩)

/-- The columns of a table `users` that take many of the names made for labels. -/
def userColumns : List TrackedColumn :=
  [⟨1, 1, 1, "id", "integer"⟩, ⟨2, 1, 2, "manager_id", "integer"⟩,
    ⟨3, 1, 3, "manager_name", "inet"⟩, ⟨4, 1, 4, "owner_id", "integer"⟩,
    ⟨5, 1, 5, "owner_uid", "integer"⟩]

/-- Foreign keys of `users`: to itself, the first of them without a label, and to a table
    that has the name by which `users` itself would be joined. -/
def userKeys : List ForeignKey :=
  [⟨"users", "manager_id", "people", "id", none⟩,
    ⟨"users", "manager_id", "users", "id", some ⟨"email", "citext"⟩⟩,
    ⟨"users", "manager_id", "people", "id", some ⟨"name", "text"⟩⟩,
    ⟨"users", "owner_id", "users_2", "id", some ⟨"name", "text"⟩⟩,
    ⟨"users", "owner_uid", "users", "uid", some ⟨"email", "citext"⟩⟩]

theorem consistent_ofColumns_users :
    userColumns.Pairwise (·.name ≠ ·.name) ∧
      (ofColumns "users" userColumns userKeys).labelJoins.map
          (fun join => (join.foreignKey.referencedTable, join.qualifier, join.output)) =
        [("users", "users_2", "manager_id_name"), ("users_2", "users_2_2", "owner_name"),
          ("users", "users_3", "owner_uid_name")] ∧
      Consistent "users" userColumns userKeys (ofColumns "users" userColumns userKeys) :=
  ⟨by decide, by decide, consistent_ofColumns "users" userColumns userKeys (by decide)⟩

end JoinPlan

end ShadowCatalog
