import ShadowCatalog.Proofs.Browse.Planner
import ShadowCatalog.Proofs.Memory.World

/-!
# Where the label of a foreign key is from

A foreign key is shown with the label of the table it refers to. What that label is can be
said without a program: of the tracked tables of the name the first one counts, its rows
are labelled by the chosen column if there is a column of that name, otherwise by the first
candidate that names a column (`LabelColumnFound`, `ShadowStore.LabelFound`).

While the keys of a table are labelled, what was found for one table is remembered for the
keys that follow. Still each key is given the label that a lookup of its own would find
(`resolveForeignKeys_labels`): the label of a key is a matter of the table it refers to, and
of nothing that comes before it.
-/

namespace ShadowCatalog

/-- The first element of a list that has a property. -/
def IsFirst {α : Type} (p : α → Prop) (list : List α) (a : α) : Prop :=
  ∃ before after, list = before ++ a :: after ∧ p a ∧ ∀ other ∈ before, ¬p other

theorem isFirst_iff_find? {α : Type} {p : α → Prop} [DecidablePred p] {list : List α} {a : α} :
    IsFirst p list a ↔ list.find? (fun other => decide (p other)) = some a := by
  rw [List.find?_eq_some_iff_append]
  simp only [IsFirst, decide_eq_true_iff, Bool.not_eq_true', decide_eq_false_iff_not]
  constructor
  · rintro ⟨before, after, hlist, ha, hbefore⟩
    exact ⟨ha, before, after, hlist, hbefore⟩
  · rintro ⟨ha, before, after, hlist, hbefore⟩
    exact ⟨before, after, hlist, ha, hbefore⟩

/-! ## The column that labels rows -/

/-- What is found among the columns of a table: the column that labels its rows, or that
    there is none. -/
inductive LabelColumnFound (chosen : Option String) (columns : List TrackedColumn) :
    Option TrackedColumn → Prop
  /-- There is a column of the name that was chosen. -/
  | chosen {column : TrackedColumn} :
      chosen = some column.name → IsFirst (·.name = column.name) columns column →
      LabelColumnFound chosen columns (some column)
  /-- There is none, but one of the name of a candidate, and none of an earlier one. -/
  | candidate {column : TrackedColumn} :
      (∀ other ∈ columns, chosen ≠ some other.name) →
      IsFirst (fun name => ∃ other ∈ columns, other.name = name) labelCandidates column.name →
      IsFirst (·.name = column.name) columns column →
      LabelColumnFound chosen columns (some column)
  | unlabelled :
      (∀ other ∈ columns, chosen ≠ some other.name) →
      (∀ other ∈ columns, other.name ∉ labelCandidates) →
      LabelColumnFound chosen columns none

section

variable {chosen : Option String} {columns : List TrackedColumn} {column : TrackedColumn}
  {name : String}

theorem columnNamed?_eq_some_iff :
    columnNamed? columns name = some column ↔ IsFirst (·.name = name) columns column :=
  isFirst_iff_find?.symm

theorem columnNamed?_eq_none_iff :
    columnNamed? columns name = none ↔ ∀ other ∈ columns, other.name ≠ name := by
  rw [columnNamed?, List.find?_eq_none]
  simp only [decide_eq_true_iff, ne_eq]

/-- No column has the chosen name, if one is chosen. -/
theorem chosen_bind_eq_none_iff :
    chosen.bind (columnNamed? columns) = none ↔ ∀ other ∈ columns, chosen ≠ some other.name := by
  cases chosen with
  | none => exact iff_of_true rfl fun _ _ => nofun
  | some name =>
    rw [Option.bind_some, columnNamed?_eq_none_iff]
    exact forall₂_congr fun other _ => ⟨fun hne heq => hne (Option.some.inj heq).symm,
      fun hne heq => hne (congrArg some heq.symm)⟩

theorem labelCandidates_findSome?_eq_none_iff :
    labelCandidates.findSome? (columnNamed? columns) = none ↔
      ∀ other ∈ columns, other.name ∉ labelCandidates := by
  simp only [List.findSome?_eq_none_iff, columnNamed?_eq_none_iff]
  exact ⟨fun h other hother hname => h _ hname other hother rfl,
    fun h name hname other hother heq => h other hother (heq ▸ hname)⟩

theorem labelCandidates_findSome?_eq_some_iff :
    labelCandidates.findSome? (columnNamed? columns) = some column ↔
      IsFirst (fun name => ∃ other ∈ columns, other.name = name) labelCandidates column.name ∧
        IsFirst (·.name = column.name) columns column := by
  rw [List.findSome?_eq_some_iff]
  constructor
  · rintro ⟨before, name, after, hlist, hnamed, hbefore⟩
    obtain ⟨first, last, hcolumns, rfl, hfirst⟩ := columnNamed?_eq_some_iff.1 hnamed
    refine ⟨⟨before, after, hlist, ⟨column, ?_, rfl⟩, fun name hname => ?_⟩,
      first, last, hcolumns, rfl, hfirst⟩
    · rw [hcolumns]
      exact List.mem_append_right _ List.mem_cons_self
    · rintro ⟨other, hother, heq⟩
      exact columnNamed?_eq_none_iff.1 (hbefore name hname) other hother heq
  · rintro ⟨⟨before, after, hlist, -, hbefore⟩, hcolumn⟩
    refine ⟨before, column.name, after, hlist, columnNamed?_eq_some_iff.2 hcolumn, ?_⟩
    intro name hname
    refine columnNamed?_eq_none_iff.2 fun other hother heq => ?_
    exact hbefore name hname ⟨other, hother, heq⟩

/-- The column that labels rows is computed. -/
theorem labelColumnFound_iff {found : Option TrackedColumn} :
    LabelColumnFound chosen columns found ↔ found = labelColumn? chosen columns := by
  constructor
  · intro h
    cases h with
    | @chosen column hchosen hcolumn =>
      rw [labelColumn?, hchosen, Option.bind_some, columnNamed?_eq_some_iff.2 hcolumn,
        Option.some_or]
    | @candidate column hchosen hcandidate hcolumn =>
      rw [labelColumn?, chosen_bind_eq_none_iff.2 hchosen, Option.none_or,
        labelCandidates_findSome?_eq_some_iff.2 ⟨hcandidate, hcolumn⟩]
    | unlabelled hchosen hcandidates =>
      rw [labelColumn?, chosen_bind_eq_none_iff.2 hchosen, Option.none_or,
        labelCandidates_findSome?_eq_none_iff.2 hcandidates]
  · rintro rfl
    rw [labelColumn?]
    cases hbind : chosen.bind (columnNamed? columns) with
    | some column =>
      obtain ⟨name, hchosen, hnamed⟩ := Option.bind_eq_some_iff.1 hbind
      obtain ⟨before, after, hcolumns, rfl, hbefore⟩ := columnNamed?_eq_some_iff.1 hnamed
      exact .chosen hchosen ⟨before, after, hcolumns, rfl, hbefore⟩
    | none =>
      have hchosen := chosen_bind_eq_none_iff.1 hbind
      rw [Option.none_or]
      cases hcandidates : labelCandidates.findSome? (columnNamed? columns) with
      | some column =>
        obtain ⟨hcandidate, hcolumn⟩ := labelCandidates_findSome?_eq_some_iff.1 hcandidates
        exact .candidate hchosen hcandidate hcolumn
      | none => exact .unlabelled hchosen (labelCandidates_findSome?_eq_none_iff.1 hcandidates)

end

/-! ## The label of a table -/

namespace ShadowStore

/-- What is found under the name of a table: a label, or that there is none. -/
inductive LabelFound (store : ShadowStore) (name : String) : Option Label → Prop
  | untracked : (∀ row ∈ store.tables, row.name ≠ name) → LabelFound store name none
  /-- Of several tables of the name, the first one counts. -/
  | tracked {row : TrackedTable} {column : Option TrackedColumn} :
      IsFirst (·.name = name) store.tables row →
      LabelColumnFound row.labelColumn (store.columnsOf row.tableId) column →
      LabelFound store name (column.map TrackedColumn.label)

variable {store : ShadowStore} {name : String}

/-- The label of a table is computed. -/
theorem labelFound_iff {label : Option Label} :
    store.LabelFound name label ↔ label = store.labelOf? name := by
  constructor
  · intro h
    cases h with
    | untracked hrows =>
      have hnone : store.tableNamed? name = none := by
        rw [tableNamed?, List.find?_eq_none]
        exact fun row hrow heq => hrows row hrow (of_decide_eq_true heq)
      rw [labelOf?, hnone, Option.bind_none]
    | tracked hrow hcolumn =>
      have hsome : store.tableNamed? name = some _ := isFirst_iff_find?.1 hrow
      rw [labelOf?, hsome, Option.bind_some, labelColumnFound_iff.1 hcolumn]
  · rintro rfl
    rw [labelOf?]
    cases hrow : store.tableNamed? name with
    | none =>
      refine .untracked fun row hmem heq => ?_
      exact List.find?_eq_none.1 hrow row hmem (decide_eq_true heq)
    | some row => exact .tracked (isFirst_iff_find?.2 hrow) (labelColumnFound_iff.2 rfl)

/-- A label is a stored column of the first table of the name. -/
theorem LabelFound.stored {label : Label} (h : store.LabelFound name (some label)) :
    ∃ row, IsFirst (·.name = name) store.tables row ∧
      ∃ column ∈ store.columnsOf row.tableId, label = ⟨column.name, column.dataType⟩ := by
  obtain ⟨found, hfound⟩ : ∃ found, found = some label := ⟨_, rfl⟩
  rw [← hfound] at h
  cases h with
  | untracked => cases hfound
  | @tracked row column hrow hcolumn =>
    obtain ⟨column, rfl, rfl⟩ := Option.map_eq_some_iff.1 hfound
    refine ⟨row, hrow, column, ?_, rfl⟩
    -- Chosen or not, the column is the first of its name among those of the table.
    obtain ⟨before, after, hcolumns, -⟩ :
        IsFirst (·.name = column.name) (store.columnsOf row.tableId) column := by
      cases hcolumn with
      | chosen _ hfirst => exact hfirst
      | candidate _ _ hfirst => exact hfirst
    rw [hcolumns]
    exact List.mem_append_right _ List.mem_cons_self

end ShadowStore

/-! ## The labels of foreign keys -/

section

variable {σ : Type} {responder : Responder σ}

/-- In each state, a table has a label, or none: the one that is found under its name, which
    is a stored column of the first tracked table of the name. Any lookup of its own comes
    to it, and so do the foreign keys of any table, which are those of the live catalog, in
    their order, with the labels of the tables that they refer to. -/
theorem resolveForeignKeys_labels (b : Backing responder) (hsteady : b.Steady) (state : σ) :
    ∃ labels : String → Option Label,
      (∀ name label, (b.store state).LabelFound name label ↔ label = labels name) ∧
      (∀ name label, labels name = some label →
        ∃ row, IsFirst (·.name = name) (b.store state).tables row ∧
          ∃ column ∈ (b.store state).columnsOf row.tableId,
            label = ⟨column.name, column.dataType⟩) ∧
      (∀ name, Unfailing responder ((tableLabel name).course responder state) →
        ((tableLabel name).perform responder state).1 = .ok (labels name)) ∧
      ∀ table, Unfailing responder ((resolveForeignKeys table).course responder state) →
        ((resolveForeignKeys table).perform responder state).1 =
            .ok (((b.live state).foreignKeys table).map fun key =>
              { key with label := labels key.referencedTable }) ∧
          b.store ((resolveForeignKeys table).perform responder state).2 = b.store state := by
  refine ⟨(b.store state).labelOf?, fun name label => ShadowStore.labelFound_iff, ?_, ?_, ?_⟩
  · intro name label hlabel
    exact (ShadowStore.labelFound_iff.2 hlabel.symm).stored
  · intro name hunfailing
    have hrun := (b.run_of_unfailing hsteady _ hunfailing).1
    exact congrArg Prod.fst
      (hrun.symm.trans (perform_tableLabel (b.live state) (b.store state) name))
  · intro table hunfailing
    have hrun := (b.run_of_unfailing hsteady _ hunfailing).1
    exact Prod.mk.inj
      (hrun.symm.trans (perform_resolveForeignKeys (b.live state) (b.store state) table))

/-- Tasks that refer to the people who do them, to one another and to a table that is not
    tracked. The people are tracked twice, and the title of a task has another name by now.
    The fifth lookup of a table would fail. -/
def assigned : World where
  live.entries := [⟨⟨1, "people"⟩, []⟩, ⟨⟨2, "tasks"⟩, []⟩, ⟨⟨3, "tags"⟩, []⟩]
  live.foreignKeys := [
    ⟨"tasks", "owner_id", "people", "id", none⟩, ⟨"tasks", "parent_id", "tasks", "id", none⟩,
    ⟨"people", "boss_id", "people", "id", none⟩, ⟨"tasks", "tag_id", "tags", "id", none⟩,
    ⟨"tasks", "room_id", "rooms", "id", none⟩, ⟨"tasks", "tester_id", "people", "id", none⟩,
    ⟨"tasks", "next_id", "tasks", "id", none⟩]
  store := ShadowStore.applyAll {} [
    .insertTable "people" 9, .insertTable "tasks" 2, .insertTable "tags" 3,
    .insertTable "people" 1,
    .insertColumn 1 ⟨2, "email", "citext", true, none, false, none⟩,
    .insertColumn 1 ⟨3, "nick", "text", true, none, false, none⟩,
    .insertColumn 2 ⟨2, "label", "text", true, none, false, none⟩,
    .insertColumn 2 ⟨3, "title", "varchar", true, none, false, none⟩,
    .insertColumn 3 ⟨1, "id", "integer", false, none, true, none⟩,
    .insertColumn 4 ⟨2, "name", "text", true, none, false, none⟩,
    .setLabelColumn 1 (some "nick"), .setLabelColumn 2 (some "heading")]
  faults := [⟨.trackedTable, 4, 1, .catalog (.cancelled "lookup")⟩]

theorem resolveForeignKeys_labels_assigned :
    ∃ labels : String → Option Label,
      labels "people" = some ⟨"nick", "text"⟩ ∧ labels "tasks" = some ⟨"title", "varchar"⟩ ∧
      labels "tags" = none ∧ labels "rooms" = none ∧
      ((resolveForeignKeys "tasks").perform World.respond assigned).1 =
        .ok ((assigned.live.foreignKeysOf "tasks").map fun key =>
          { key with label := labels key.referencedTable }) ∧
      ((assigned.live.foreignKeysOf "tasks").map (·.referencedTable)) =
        ["people", "tasks", "tags", "rooms", "people", "tasks"] := by
  obtain ⟨labels, hfound, -, -, hresolve⟩ :=
    resolveForeignKeys_labels World.backing World.steady assigned
  have hlabel (name : String) : labels name = assigned.store.labelOf? name :=
    ShadowStore.labelFound_iff.1 ((hfound name _).2 rfl)
  refine ⟨labels, ?_, ?_, ?_, ?_, ?_, by decide +kernel⟩
  · exact (hlabel _).trans (by decide +kernel)
  · exact (hlabel _).trans (by decide +kernel)
  · exact (hlabel _).trans (by decide +kernel)
  · exact (hlabel _).trans (by decide +kernel)
  · exact (hresolve "tasks" (unfailing_of_all (by decide +kernel))).1

end

end ShadowCatalog
