import ShadowCatalog.Browse.Query
import ShadowCatalog.Proofs.Browse.Naming

/-!
# What a join plan is made of

A join plan shows the columns that it was made for, in their order
(`JoinPlan.map_column_columns`). A label is joined by a foreign key of the column that it
follows (`JoinPlan.LabelledBy`), under a name that stands for no other table
(`JoinPlan.nodup_tables`). So what is shown of the table itself is just its columns
(`JoinPlan.filter_selected`), and a name stands for something that is shown
(`JoinPlan.mem_selected_of_resolve?`).

What a plan refers to are columns of the tables that it names, as long as its own columns
are and its foreign keys reach their labels (`JoinPlan.means_of_mem_refs`).
-/

namespace ShadowCatalog

/-! ## Values by name -/

namespace NameMap

variable {α : Type}

/-- A map has the value that was set last. -/
theorem get?_ofList (pairs : List (String × α)) (name : String) :
    get? name (.ofList pairs) = (pairs.reverse.find? (·.1 = name)).map (·.2) := by
  have hfold (map : NameMap α) :
      get? name (pairs.foldl (fun map pair => map.insert pair.1 pair.2) map) =
        ((pairs.reverse.find? (·.1 = name)).map (·.2)).or (get? name map) := by
    induction pairs generalizing map with
    | nil => rfl
    | cons pair pairs ih =>
      rw [List.foldl_cons, ih, get?_insert, List.reverse_cons, List.find?_append]
      cases pairs.reverse.find? (·.1 = name) with
      | some later => rfl
      | none => by_cases hname : pair.1 = name <;> simp [hname]
  exact (hfold []).trans Option.or_none

/-- A map holds what was set. -/
theorem mem_of_get?_ofList {pairs : List (String × α)} {name : String} {value : α}
    (h : get? name (.ofList pairs) = some value) : (name, value) ∈ pairs := by
  rw [get?_ofList, Option.map_eq_some_iff] at h
  obtain ⟨pair, hpair, rfl⟩ := h
  obtain rfl : pair.1 = name := by simpa using List.find?_some hpair
  exact List.mem_reverse.1 (List.mem_of_find?_eq_some hpair)

/-- A map has a value for each name that was set. -/
theorem get?_ofList_ne_none {pairs : List (String × α)} {name : String} {value : α}
    (h : (name, value) ∈ pairs) : get? name (.ofList pairs) ≠ none := by
  rw [get?_ofList, Ne, Option.map_eq_none_iff, List.find?_eq_none]
  exact fun hnone => hnone _ (List.mem_reverse.2 h) (by simp)

/-- A map has a value for no other name. -/
theorem get?_ofList_eq_none_iff {pairs : List (String × α)} {name : String} :
    get? name (.ofList pairs) = none ↔ name ∉ pairs.map (·.1) := by
  constructor
  · intro hnone hmem
    obtain ⟨pair, hpair, rfl⟩ := List.mem_map.1 hmem
    exact get?_ofList_ne_none hpair hnone
  · intro hfree
    rw [Option.eq_none_iff_forall_not_mem]
    exact fun value hvalue => hfree (List.mem_map_of_mem (mem_of_get?_ofList hvalue))

theorem insert_perm {name : String} {value : α} {map : NameMap α} (h : name ∉ map.map (·.1)) :
    (map.insert name value).Perm ((name, value) :: map) := by
  induction map with
  | nil => exact .refl _
  | cons first rest ih =>
    obtain ⟨other, old⟩ := first
    rw [List.map_cons, List.mem_cons, not_or] at h
    rw [insert, if_neg h.1]
    split
    · exact .refl _
    · exact ((ih h.2).cons _).trans (.swap _ _ _)

/-- Where names differ, a map is made up of all that was set. -/
theorem ofList_perm {pairs : List (String × α)} (h : (pairs.map (·.1)).Nodup) :
    (ofList pairs).Perm pairs := by
  -- The names of what is still to be set are free in the map that is there by then.
  have hfold (map : List (String × α)) (hfree : ((map ++ pairs).map (·.1)).Nodup) :
      (pairs.foldl (fun map pair => insert pair.1 pair.2 map) map).Perm
        (map ++ pairs) := by
    clear h
    induction pairs generalizing map with
    | nil => simp
    | cons pair pairs ih =>
      have hmiddle : (map ++ pair :: pairs).Perm (pair :: (map ++ pairs)) := List.perm_middle
      have hnodup := (hmiddle.map (·.1)).nodup_iff.1 hfree
      have hnew : pair.1 ∉ map.map (·.1) := fun hmem =>
        (List.nodup_cons.1 hnodup).1 (by rw [List.map_append]; exact List.mem_append_left _ hmem)
      have hinsert : (insert pair.1 pair.2 map ++ pairs).Perm (pair :: (map ++ pairs)) :=
        (insert_perm hnew).append_right pairs
      have hnext := (hinsert.map (·.1)).nodup_iff.2 hnodup
      exact (ih _ hnext).trans (hinsert.trans hmiddle.symm)
  exact hfold [] h

/-- Where names differ, a map has each value that was set. -/
theorem get?_ofList_of_mem {pairs : List (String × α)} (h : (pairs.map (·.1)).Nodup)
    {name : String} {value : α} (hmem : (name, value) ∈ pairs) :
    get? name (.ofList pairs) = some value := by
  obtain ⟨found, hfound⟩ := Option.ne_none_iff_exists'.1 (get?_ofList_ne_none hmem)
  have hsame := List.inj_on_of_nodup_map h (mem_of_get?_ofList hfound) hmem rfl
  exact hfound.trans (congrArg (some ∘ Prod.snd) hsame)

end NameMap

/-- What a foreign key needs for its label to be shown: the column that it refers to and
    the label itself are there, where `has` says which tables have which columns. -/
def ForeignKey.Reaches (has : String → String → Prop) (key : ForeignKey) : Prop :=
  ∀ label ∈ key.label,
    has key.referencedTable key.referencedColumn ∧ has key.referencedTable label.name

namespace JoinPlan

variable {table : String} {columns : List TrackedColumn} {foreignKeys : List ForeignKey}

/-! ## The parts of a plan -/

/-- A label that follows a column is reached by a foreign key of that column, which has
    this label. -/
structure LabelledBy (foreignKeys : List ForeignKey) (column : TrackedColumn)
    (join : LabelJoin) : Prop where
  foreignKey : join.foreignKey ∈ foreignKeys
  column : join.foreignKey.referencingColumn = column.name
  label : join.foreignKey.label = some join.label

theorem of_labelled?_eq_some {column : String} {key : ForeignKey} {label : Label}
    (h : labelled? foreignKeys column = some (key, label)) :
    key ∈ foreignKeys ∧ key.referencingColumn = column ∧ key.label = some label := by
  obtain ⟨other, hother, hlabel⟩ := List.exists_of_findSome?_eq_some h
  rw [List.mem_filter, decide_eq_true_iff] at hother
  obtain ⟨found, hfound, heq⟩ := Option.map_eq_some_iff.1 hlabel
  cases heq
  exact ⟨hother.1, hother.2, hfound⟩

theorem map_column_plannedColumns (qualifiers outputs : List String) :
    (plannedColumns foreignKeys qualifiers outputs columns).map (·.column) = columns := by
  fun_induction plannedColumns foreignKeys qualifiers outputs columns <;> simp_all

/-- A plan shows the columns that it was made for. -/
theorem map_column_columns :
    (ofColumns table columns foreignKeys).columns.map (·.column) = columns :=
  map_column_plannedColumns _ _

/-- Each label is joined under a name of its own. -/
theorem labelledBy_of_mem_plannedColumns {qualifiers outputs : List String}
    {planned : PlannedColumn} {join : LabelJoin}
    (hplanned : planned ∈ plannedColumns foreignKeys qualifiers outputs columns)
    (hjoin : join ∈ planned.labelJoin) :
    LabelledBy foreignKeys planned.column join ∧ join.qualifier ∉ qualifiers := by
  fun_induction plannedColumns foreignKeys qualifiers outputs columns with
  | case1 => cases hplanned
  | case2 qualifiers outputs column columns hnone ih =>
    rcases List.mem_cons.1 hplanned with rfl | hplanned
    · cases hjoin
    · exact ih hplanned
  | case3 qualifiers outputs column columns key label hsome first ih =>
    rcases List.mem_cons.1 hplanned with rfl | hplanned
    · obtain rfl : first = join := Option.some.inj hjoin
      obtain ⟨hkey, hcolumn, hlabel⟩ := of_labelled?_eq_some hsome
      exact ⟨⟨hkey, hcolumn, hlabel⟩, freshName_not_mem _ _⟩
    · obtain ⟨hlabelled, hfree⟩ := ih hplanned
      exact ⟨hlabelled, fun hmem => hfree (List.mem_cons_of_mem _ hmem)⟩

theorem labelledBy_of_mem_columns {planned : PlannedColumn} {join : LabelJoin}
    (hplanned : planned ∈ (ofColumns table columns foreignKeys).columns)
    (hjoin : join ∈ planned.labelJoin) :
    LabelledBy foreignKeys planned.column join ∧ join.qualifier ≠ table := by
  obtain ⟨hlabelled, hfree⟩ := labelledBy_of_mem_plannedColumns hplanned hjoin
  exact ⟨hlabelled, fun heq => hfree (heq ▸ List.mem_cons_self)⟩

/-- The names by which tables are joined differ. -/
theorem nodup_qualifiers (qualifiers outputs : List String) :
    (((plannedColumns foreignKeys qualifiers outputs columns).filterMap (·.labelJoin)).map
      (·.qualifier)).Nodup := by
  fun_induction plannedColumns foreignKeys qualifiers outputs columns with
  | case1 => exact .nil
  | case2 qualifiers outputs column columns hnone ih => exact ih
  | case3 qualifiers outputs column columns key label hsome first ih =>
    refine List.nodup_cons.2 ⟨fun hmem => ?_, ih⟩
    obtain ⟨join, hjoin, heq⟩ := List.mem_map.1 hmem
    obtain ⟨planned, hplanned, hjoin⟩ := List.mem_filterMap.1 hjoin
    -- The names of the later ones are free of this one.
    exact (labelledBy_of_mem_plannedColumns hplanned hjoin).2 (heq ▸ List.mem_cons_self)

/-! ## What is shown -/

/-- A column of the table as an output column. -/
def shown (table : String) (column : TrackedColumn) : Selected :=
  ⟨⟨table, column.name⟩, column.dataType, column.name⟩

/-- What is shown is a column of the table or a label that is joined. -/
theorem mem_selected {plan : JoinPlan} {selected : Selected} :
    selected ∈ plan.selected ↔
      (∃ planned ∈ plan.columns, selected = shown plan.table planned.column) ∨
        ∃ join ∈ plan.labelJoins, selected = join.selected := by
  simp only [JoinPlan.selected, labelJoins, List.mem_flatMap, List.mem_cons, List.mem_filterMap,
    Option.mem_toList, Option.map_eq_some_iff]
  constructor
  · rintro ⟨planned, hplanned, hshown | ⟨join, hjoin, hlabel⟩⟩
    · exact .inl ⟨planned, hplanned, hshown⟩
    · exact .inr ⟨join, ⟨planned, hplanned, hjoin⟩, hlabel.symm⟩
  · rintro (⟨planned, hplanned, hshown⟩ | ⟨join, ⟨planned, hplanned, hjoin⟩, hlabel⟩)
    · exact ⟨planned, hplanned, .inl hshown⟩
    · exact ⟨planned, hplanned, .inr ⟨join, hjoin, hlabel.symm⟩⟩

/-- What is shown of the table itself are its columns, each of them once. -/
theorem filter_selected :
    (ofColumns table columns foreignKeys).selected.filter (·.ref.qualifier = table) =
      columns.map (shown table) := by
  have hone : ∀ planned ∈ (ofColumns table columns foreignKeys).columns,
      ((shown table planned.column :: (planned.labelJoin.map LabelJoin.selected).toList).filter
        (·.ref.qualifier = table)) = [shown table planned.column] := by
    intro planned hplanned
    cases hjoin : planned.labelJoin with
    | none => simp [shown]
    | some join =>
      have hfree := (labelledBy_of_mem_columns hplanned hjoin).2
      simp [shown, LabelJoin.selected, LabelJoin.ref, hfree]
  calc (ofColumns table columns foreignKeys).selected.filter (·.ref.qualifier = table)
      = (ofColumns table columns foreignKeys).columns.flatMap fun planned =>
          [shown table planned.column] := by
        rw [selected, List.filter_flatMap]
        exact List.flatMap_congr hone
    _ = ((ofColumns table columns foreignKeys).columns.map (·.column)).map (shown table) := by
        rw [← List.map_eq_flatMap, List.map_map]
        rfl
    _ = columns.map (shown table) := by rw [map_column_columns]

/-- A name that stands for something stands for something that is shown. -/
theorem mem_selected_of_resolve? {plan : JoinPlan} {name : String} {ref : ColumnRef}
    (h : plan.resolve? name = some ref) : ref ∈ plan.selected.map (·.ref) := by
  rw [List.mem_map]
  obtain hcolumn | ⟨-, hlabel⟩ := Option.or_eq_some_iff.1 h
  · obtain ⟨planned, hplanned, heq⟩ := List.mem_map.1 (NameMap.mem_of_get?_ofList hcolumn)
    exact ⟨_, mem_selected.2 (.inl ⟨planned, hplanned, rfl⟩), congrArg Prod.snd heq⟩
  · obtain ⟨join, hjoin, heq⟩ := List.mem_map.1 (NameMap.mem_of_get?_ofList hlabel)
    exact ⟨_, mem_selected.2 (.inr ⟨join, hjoin, rfl⟩), congrArg Prod.snd heq⟩

theorem mem_outputs {plan : JoinPlan} {name : String} :
    name ∈ plan.selected.map (·.output) ↔
      (∃ planned ∈ plan.columns, planned.column.name = name) ∨
        ∃ join ∈ plan.labelJoins, join.output = name := by
  rw [List.mem_map]
  constructor
  · rintro ⟨selected, hselected, rfl⟩
    rcases mem_selected.1 hselected with ⟨planned, hplanned, rfl⟩ | ⟨join, hjoin, rfl⟩
    · exact .inl ⟨planned, hplanned, rfl⟩
    · exact .inr ⟨join, hjoin, rfl⟩
  · rintro (⟨planned, hplanned, rfl⟩ | ⟨join, hjoin, rfl⟩)
    · exact ⟨_, mem_selected.2 (.inl ⟨planned, hplanned, rfl⟩), rfl⟩
    · exact ⟨_, mem_selected.2 (.inr ⟨join, hjoin, rfl⟩), rfl⟩

/-- A name stands for something exactly if something is shown under it. -/
theorem resolve?_eq_none_iff {plan : JoinPlan} {name : String} :
    plan.resolve? name = none ↔ name ∉ plan.selected.map (·.output) := by
  rw [resolve?, Option.or_eq_none_iff, columnRefs, labelRefs, NameMap.get?_ofList_eq_none_iff,
    NameMap.get?_ofList_eq_none_iff, mem_outputs, not_or, List.map_map, List.map_map,
    List.mem_map, List.mem_map]
  rfl

/-- The name of a column of the table stands for something. -/
theorem resolve?_ne_none {column : TrackedColumn} (h : column ∈ columns) :
    (ofColumns table columns foreignKeys).resolve? column.name ≠ none := by
  have hmem : column ∈ (ofColumns table columns foreignKeys).columns.map (·.column) := by
    rwa [map_column_columns]
  obtain ⟨planned, hplanned, rfl⟩ := List.mem_map.1 hmem
  intro hnone
  have hset := List.mem_map_of_mem (f := fun planned : PlannedColumn =>
    (planned.column.name, ColumnRef.mk table planned.column.name)) hplanned
  exact NameMap.get?_ofList_ne_none hset (Option.or_eq_none_iff.1 hnone).1

/-! ## What is referred to -/

section

variable (plan : JoinPlan)

/-- The tables of a plan, each after the name by which it goes. -/
def tables : List (String × String) :=
  (plan.table, plan.table) ::
    plan.labelJoins.map fun join => (join.qualifier, join.foreignKey.referencedTable)

/-- The columns that labels are joined by, on either side. -/
def joinRefs : List ColumnRef :=
  plan.columns.flatMap fun planned =>
    planned.labelJoin.toList.flatMap fun join =>
      [plan.ref planned.column.name, ⟨join.qualifier, join.foreignKey.referencedColumn⟩]

/-- All columns that a plan refers to. -/
def refs : List ColumnRef := plan.selected.map (·.ref) ++ plan.joinRefs

/-- A reference is one to a column of a table of the plan. -/
def Means (has : String → String → Prop) (ref : ColumnRef) : Prop :=
  ∃ name, (ref.qualifier, name) ∈ plan.tables ∧ has name ref.column

end

theorem mem_refs_of_resolve? {plan : JoinPlan} {name : String} {ref : ColumnRef}
    (h : plan.resolve? name = some ref) : ref ∈ plan.refs :=
  List.mem_append_left _ (mem_selected_of_resolve? h)

/-- A name stands for one table only. -/
theorem nodup_tables : ((ofColumns table columns foreignKeys).tables.map (·.1)).Nodup := by
  rw [tables, List.map_cons, List.map_map, List.nodup_cons]
  refine ⟨fun hmem => ?_, nodup_qualifiers _ _⟩
  obtain ⟨join, hjoin, heq⟩ := List.mem_map.1 hmem
  obtain ⟨planned, hplanned, hjoin⟩ := List.mem_filterMap.1 hjoin
  exact (labelledBy_of_mem_columns hplanned hjoin).2 heq

/-- What a plan refers to are columns, if its own columns are and its foreign keys reach
    their labels. -/
theorem means_of_mem_refs {has : String → String → Prop}
    (hcolumns : ∀ column ∈ columns, has table column.name)
    (hkeys : ∀ key ∈ foreignKeys, key.Reaches has)
    {ref : ColumnRef} (href : ref ∈ (ofColumns table columns foreignKeys).refs) :
    (ofColumns table columns foreignKeys).Means has ref := by
  have hcolumn : ∀ planned ∈ (ofColumns table columns foreignKeys).columns,
      (ofColumns table columns foreignKeys).Means has ⟨table, planned.column.name⟩ := by
    intro planned hplanned
    have hmem := List.mem_map_of_mem (f := PlannedColumn.column) hplanned
    rw [map_column_columns] at hmem
    exact ⟨table, List.mem_cons_self, hcolumns _ hmem⟩
  have hjoin : ∀ planned ∈ (ofColumns table columns foreignKeys).columns,
      ∀ join ∈ planned.labelJoin, ∀ column,
        has join.foreignKey.referencedTable column →
          (ofColumns table columns foreignKeys).Means has ⟨join.qualifier, column⟩ := by
    intro planned hplanned join hjoin column hcolumn
    refine ⟨_, List.mem_cons_of_mem _ (List.mem_map.2 ⟨join, ?_, rfl⟩), hcolumn⟩
    exact List.mem_filterMap.2 ⟨planned, hplanned, hjoin⟩
  have hlabel : ∀ planned ∈ (ofColumns table columns foreignKeys).columns,
      ∀ join ∈ planned.labelJoin,
        has join.foreignKey.referencedTable join.foreignKey.referencedColumn ∧
          has join.foreignKey.referencedTable join.label.name := by
    intro planned hplanned join hjoin
    have hlabelled := (labelledBy_of_mem_columns hplanned hjoin).1
    exact hkeys _ hlabelled.foreignKey _ hlabelled.label
  rw [refs, List.mem_append, List.mem_map] at href
  obtain ⟨selected, hselected, rfl⟩ | href := href
  · rcases mem_selected.1 hselected with ⟨planned, hplanned, rfl⟩ | ⟨join, hmem, rfl⟩
    · exact hcolumn planned hplanned
    · obtain ⟨planned, hplanned, hmem⟩ := List.mem_filterMap.1 hmem
      exact hjoin planned hplanned join hmem _ (hlabel planned hplanned join hmem).2
  · simp only [joinRefs, List.mem_flatMap, List.mem_cons, List.not_mem_nil, or_false,
      Option.mem_toList] at href
    obtain ⟨planned, hplanned, join, hmem, rfl | rfl⟩ := href
    · exact hcolumn planned hplanned
    · exact hjoin planned hplanned join hmem _ (hlabel planned hplanned join hmem).1

end JoinPlan

end ShadowCatalog
