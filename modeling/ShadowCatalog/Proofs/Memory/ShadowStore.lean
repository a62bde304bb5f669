import Mathlib.Data.List.Nodup
import Mathlib.Tactic.Common
import ShadowCatalog.Memory.ShadowStore

/-!
# Shadow catalogs in memory: what changes do

A shadow catalog that changes lead to, whatever they are (`Reachable`), keeps
its rows in the order of their ids, none of them above the last id given
(`WellKeyed`): so a row is found by its id, and a new id is a fresh one.

What a change makes of a store is `apply`, and what a list of them does is
`applyAll`. A change of a row that does not exist fails (`Accepts`), and the
store stays as it is. Of what a change does there is one equation for each kind
of change.
-/

namespace ShadowCatalog

/-- Where keys differ, the first element of a key is the only one. -/
theorem find?_key_eq_some_iff {α κ : Type} [DecidableEq κ] (key : α → κ) {list : List α}
    (h : list.Pairwise (key · ≠ key ·)) {k : κ} {a : α} :
    list.find? (key · = k) = some a ↔ a ∈ list ∧ key a = k := by
  have hmem {other : α} (hother : list.find? (key · = k) = some other) :
      other ∈ list ∧ key other = k :=
    ⟨List.mem_of_find?_eq_some hother, by simpa using List.find?_some hother⟩
  refine ⟨hmem, fun ⟨ha, hk⟩ => ?_⟩
  cases hfind : list.find? (key · = k) with
  | none => exact absurd hk (by simpa using List.find?_eq_none.1 hfind a ha)
  | some other =>
    obtain ⟨hother, hk'⟩ := hmem hfind
    rw [List.inj_on_of_nodup_map (List.pairwise_map.2 h) hother ha (hk'.trans hk.symm)]

namespace ShadowStore

/-- The stores that changes lead to from an empty one. -/
inductive Reachable : ShadowStore → Prop
  | empty : Reachable {}
  | write {store later : ShadowStore} {w : Write} {reply : w.Reply} :
      Reachable store → store.write w = .ok (reply, later) → Reachable later

/-- Rows are in the order of their ids, which are not above the last one given. -/
structure WellKeyed (store : ShadowStore) : Prop where
  tables : store.tables.Pairwise (·.tableId < ·.tableId)
  tables_le : ∀ row ∈ store.tables, row.tableId ≤ store.lastTableId
  columns : store.columns.Pairwise (·.columnId < ·.columnId)
  columns_le : ∀ row ∈ store.columns, row.columnId ≤ store.lastColumnId

/-- A change can be made: the row that it changes exists. -/
def Accepts (store : ShadowStore) (w : Write) : Prop :=
  ∃ reply later, store.write w = .ok (reply, later)

/-- The store after a change. A change that fails leaves the store as it is. -/
def apply (store : ShadowStore) (w : Write) : ShadowStore :=
  match store.write w with
  | .ok (_, later) => later
  | .error _ => store

/-- The store after changes, one after the other. -/
def applyAll (store : ShadowStore) (ws : List Write) : ShadowStore := ws.foldl apply store

/-- Each change of a list has a property in the store that those before it leave. -/
def Each (p : ShadowStore → Write → Prop) : ShadowStore → List Write → Prop
  | _, [] => True
  | store, w :: ws => p store w ∧ (store.apply w).Each p ws

/-- Every change of a list can be made, after those before it. -/
abbrev AcceptsAll (store : ShadowStore) (ws : List Write) : Prop := store.Each Accepts ws

variable {store later : ShadowStore}

theorem apply_of_write {w : Write} {reply : w.Reply} (h : store.write w = .ok (reply, later)) :
    store.apply w = later := by
  rw [apply, h]

@[simp] theorem applyAll_nil : store.applyAll [] = store := rfl

@[simp] theorem applyAll_cons (w : Write) (ws : List Write) :
    store.applyAll (w :: ws) = (store.apply w).applyAll ws := rfl

@[simp] theorem applyAll_append (ws vs : List Write) :
    store.applyAll (ws ++ vs) = (store.applyAll ws).applyAll vs := List.foldl_append

theorem each_append {p : ShadowStore → Write → Prop} {ws vs : List Write} :
    store.Each p (ws ++ vs) ↔ store.Each p ws ∧ (store.applyAll ws).Each p vs := by
  induction ws generalizing store with
  | nil => exact ⟨fun h => ⟨trivial, h⟩, And.right⟩
  | cons w ws ih => exact (and_congr_right fun _ => ih).trans and_assoc.symm

/-- A property that changes have in any store. -/
theorem each_of_forall {p : ShadowStore → Write → Prop} {ws : List Write}
    (h : ∀ w ∈ ws, ∀ store, p store w) : store.Each p ws := by
  induction ws generalizing store with
  | nil => exact trivial
  | cons w ws ih =>
    rw [List.forall_mem_cons] at h
    exact ⟨h.1 store, ih h.2⟩

/-! ## Tables -/

/-- Rows, of which that of one table is changed. -/
def changeRow (table : TableId) (change : TrackedTable → TrackedTable)
    (rows : List TrackedTable) : List TrackedTable :=
  rows.map fun row => if row.tableId = table then change row else row

theorem hasTable_iff {table : TableId} :
    store.hasTable table = true ↔ ∃ row ∈ store.tables, row.tableId = table := by
  simp [hasTable]

theorem changeRow_congr {table : TableId} {change other : TrackedTable → TrackedTable}
    {rows : List TrackedTable} (h : ∀ row ∈ rows, row.tableId = table → change row = other row) :
    changeRow table change rows = changeRow table other rows := by
  refine List.map_congr_left ?_
  intro row hrow
  split
  · next heq => exact h row hrow heq
  · rfl

theorem changeRow_id (table : TableId) (rows : List TrackedTable) :
    changeRow table id rows = rows := by
  refine (List.map_congr_left fun row _ => ?_).trans (List.map_id rows)
  split <;> rfl

theorem changeRow_of_forall_ne {table : TableId} {change : TrackedTable → TrackedTable}
    {rows : List TrackedTable} (h : ∀ row ∈ rows, row.tableId ≠ table) :
    changeRow table change rows = rows := by
  refine (List.map_congr_left fun row hrow => ?_).trans (List.map_id rows)
  exact if_neg (h row hrow)

/-- Where ids differ, only one row is changed. -/
theorem changeRow_append_cons {change : TrackedTable → TrackedTable}
    {before after : List TrackedTable} {row : TrackedTable}
    (h : (before ++ row :: after).Pairwise fun a b => a.tableId < b.tableId) :
    changeRow row.tableId change (before ++ row :: after) = before ++ change row :: after := by
  rw [List.pairwise_append, List.pairwise_cons] at h
  obtain ⟨_, ⟨hafter, _⟩, hbefore⟩ := h
  -- The ids ascend, so that neither a row before nor one after has the id.
  have h₁ : changeRow row.tableId change before = before :=
    changeRow_of_forall_ne fun r hr => Int.ne_of_lt (hbefore r hr row List.mem_cons_self)
  have h₂ : changeRow row.tableId change after = after :=
    changeRow_of_forall_ne fun r hr => (Int.ne_of_lt (hafter r hr)).symm
  rw [changeRow, List.map_append, List.map_cons, if_pos rfl]
  exact congrArg₂ (· ++ _ :: ·) h₁ h₂

theorem mem_changeRow {table : TableId} {change : TrackedTable → TrackedTable}
    {rows : List TrackedTable} {row : TrackedTable} :
    row ∈ changeRow table change rows ↔
      (row ∈ rows ∧ row.tableId ≠ table) ∨
        ∃ old ∈ rows, old.tableId = table ∧ row = change old := by
  rw [changeRow, List.mem_map]
  constructor
  · rintro ⟨old, hold, rfl⟩
    split
    · next h => exact .inr ⟨old, hold, h, rfl⟩
    · next h => exact .inl ⟨hold, h⟩
  · rintro (⟨hrow, hne⟩ | ⟨old, hold, heq, rfl⟩)
    · exact ⟨row, hrow, if_neg hne⟩
    · exact ⟨old, hold, if_pos heq⟩

theorem changeTable_of_hasTable {table : TableId} (change : TrackedTable → TrackedTable)
    (h : store.hasTable table = true) :
    store.changeTable table change =
      .ok { store with
        tables := changeRow table change store.tables
        writes := store.writes + 1 } :=
  if_pos h

theorem changeTable_of_not_hasTable {table : TableId} (change : TrackedTable → TrackedTable)
    (h : store.hasTable table = false) :
    store.changeTable table change = .error (.rowMissing ("table " ++ toString table)) :=
  if_neg (by rw [h]; exact Bool.false_ne_true)

/-! ## Changes -/

theorem write_renameTable {table : TableId} {name : String} (h : store.hasTable table = true) :
    store.write (.renameTable table name) = .ok ((), { store with
      tables := changeRow table ({ · with name }) store.tables
      writes := store.writes + 1 }) := by
  rw [write, changeTable_of_hasTable _ h]; rfl

theorem write_updatePhysicalId {table : TableId} {physicalId : PhysicalId}
    (h : store.hasTable table = true) :
    store.write (.updatePhysicalId table physicalId) = .ok ((), { store with
      tables := changeRow table ({ · with physicalId }) store.tables
      writes := store.writes + 1 }) := by
  rw [write, changeTable_of_hasTable _ h]; rfl

theorem write_saveLayout {table : TableId} {columnIds : IdSet} {displayOrder : List ColumnId}
    (h : store.hasTable table = true) :
    store.write (.saveLayout table columnIds displayOrder) = .ok ((), { store with
      tables := changeRow table ({ · with columnIds, displayOrder }) store.tables
      writes := store.writes + 1 }) := by
  rw [write, changeTable_of_hasTable _ h]; rfl

theorem write_insertColumn {table : TableId} {column : LiveColumn}
    (h : store.hasTable table = true) :
    store.write (.insertColumn table column) = .ok (store.lastColumnId + 1, { store with
      columns := store.columns ++ [.ofLive (store.lastColumnId + 1) table column]
      lastColumnId := store.lastColumnId + 1
      writes := store.writes + 1 }) :=
  if_pos h

theorem write_updateColumn {column : TrackedColumn} (h : store.hasColumn column.columnId = true) :
    store.write (.updateColumn column) = .ok ((), { store with
      columns := store.columns.map fun row =>
        if row.columnId = column.columnId then column else row
      writes := store.writes + 1 }) := by
  rw [write, updateColumn, if_pos h]; rfl

/-- Where the row of a table was changed, there is one, and nothing else changed. -/
theorem of_changeTable_eq_ok {table : TableId} {change : TrackedTable → TrackedTable}
    {reply : Unit} (h : (store.changeTable table change).map ((), ·) = .ok (reply, later)) :
    store.hasTable table = true ∧
      later = { store with
        tables := changeRow table change store.tables
        writes := store.writes + 1 } := by
  cases hhas : store.hasTable table with
  | true =>
    rw [changeTable_of_hasTable _ hhas] at h
    cases h
    exact ⟨rfl, rfl⟩
  | false =>
    rw [changeTable_of_not_hasTable _ hhas] at h
    cases h

theorem of_insertColumn_eq_ok {table : TableId} {column : LiveColumn} {id : ColumnId}
    (h : store.insertColumn table column = .ok (id, later)) :
    store.hasTable table = true ∧ id = store.lastColumnId + 1 ∧
      later = { store with
        columns := store.columns ++ [.ofLive (store.lastColumnId + 1) table column]
        lastColumnId := store.lastColumnId + 1
        writes := store.writes + 1 } := by
  unfold insertColumn at h
  split at h
  · next hhas =>
    cases h
    exact ⟨hhas, rfl, rfl⟩
  · cases h

theorem of_updateColumn_eq_ok {column : TrackedColumn} {reply : Unit}
    (h : (store.updateColumn column).map ((), ·) = .ok (reply, later)) :
    store.hasColumn column.columnId = true ∧
      later = { store with
        columns := store.columns.map fun row =>
          if row.columnId = column.columnId then column else row
        writes := store.writes + 1 } := by
  unfold updateColumn at h
  split at h
  · next hhas =>
    cases h
    exact ⟨hhas, rfl⟩
  · cases h

/-! ## Ids -/

namespace WellKeyed

theorem changeRow (h : store.WellKeyed) {table : TableId} {change : TrackedTable → TrackedTable}
    (hid : ∀ row, (change row).tableId = row.tableId) (writes : Nat) :
    { store with tables := changeRow table change store.tables, writes }.WellKeyed where
  tables := by
    have hsame (row : TrackedTable) :
        (if row.tableId = table then change row else row).tableId = row.tableId := by
      split
      · exact hid row
      · rfl
    refine List.pairwise_map.2 (h.tables.imp fun {a b} hab => ?_)
    rw [hsame, hsame]
    exact hab
  tables_le row hrow := by
    rcases mem_changeRow.1 hrow with ⟨hrow, _⟩ | ⟨old, hold, _, rfl⟩
    · exact h.tables_le row hrow
    · rw [hid]; exact h.tables_le old hold
  columns := h.columns
  columns_le := h.columns_le

theorem insertTable (h : store.WellKeyed) (name : String) (physicalId : PhysicalId) :
    (store.insertTable name physicalId).2.WellKeyed where
  tables := by
    refine List.pairwise_append.2 ⟨h.tables, List.pairwise_singleton _ _, fun a ha b hb => ?_⟩
    rw [List.mem_singleton.1 hb]
    exact Int.lt_add_one_of_le (h.tables_le a ha)
  tables_le row hrow := by
    rcases List.mem_append.1 hrow with hrow | hrow
    · exact Int.le_trans (h.tables_le row hrow) (Int.le_add_one (Int.le_refl _))
    · rw [List.mem_singleton.1 hrow]; exact Int.le_refl _
  columns := h.columns
  columns_le := h.columns_le

theorem deleteTable (h : store.WellKeyed) (table : TableId) :
    (store.deleteTable table).WellKeyed where
  tables := h.tables.filter _
  tables_le row hrow := h.tables_le row (List.mem_filter.1 hrow).1
  columns := h.columns.filter _
  columns_le row hrow := h.columns_le row (List.mem_filter.1 hrow).1

theorem deleteColumn (h : store.WellKeyed) (column : ColumnId) :
    (store.deleteColumn column).WellKeyed where
  tables := h.tables
  tables_le := h.tables_le
  columns := h.columns.filter _
  columns_le row hrow := h.columns_le row (List.mem_filter.1 hrow).1

/-- Every change keeps rows in the order of their ids. -/
theorem write (h : store.WellKeyed) {w : Write} {reply : w.Reply}
    (hw : store.write w = .ok (reply, later)) : later.WellKeyed := by
  cases w with
  | insertTable name physicalId =>
    cases hw
    exact h.insertTable name physicalId
  | renameTable table name =>
    obtain ⟨_, rfl⟩ := of_changeTable_eq_ok hw
    refine h.changeRow (fun row => ?_) _
    rfl
  | updatePhysicalId table physicalId =>
    obtain ⟨_, rfl⟩ := of_changeTable_eq_ok hw
    refine h.changeRow (fun row => ?_) _
    rfl
  | deleteTable table =>
    cases hw
    exact h.deleteTable table
  | saveLayout table columnIds displayOrder =>
    obtain ⟨_, rfl⟩ := of_changeTable_eq_ok hw
    refine h.changeRow (fun row => ?_) _
    rfl
  | setLabelColumn table label =>
    obtain ⟨_, rfl⟩ := of_changeTable_eq_ok hw
    refine h.changeRow (fun row => ?_) _
    rfl
  | insertColumn table column =>
    obtain ⟨_, _, rfl⟩ := of_insertColumn_eq_ok hw
    refine ⟨h.tables, h.tables_le, ?_, fun row hrow => ?_⟩
    · refine List.pairwise_append.2 ⟨h.columns, List.pairwise_singleton _ _, fun a ha b hb => ?_⟩
      rw [List.mem_singleton.1 hb]
      exact Int.lt_add_one_of_le (h.columns_le a ha)
    · rcases List.mem_append.1 hrow with hrow | hrow
      · exact Int.le_trans (h.columns_le row hrow) (Int.le_add_one (Int.le_refl _))
      · rw [List.mem_singleton.1 hrow]; exact Int.le_refl _
  | updateColumn column =>
    obtain ⟨_, rfl⟩ := of_updateColumn_eq_ok hw
    refine ⟨h.tables, h.tables_le, ?_, fun row hrow => ?_⟩
    -- A row is only replaced by one of its own id.
    · have hsame (row : TrackedColumn) :
          (if row.columnId = column.columnId then column else row).columnId = row.columnId := by
        split
        · next heq => exact heq.symm
        · rfl
      refine List.pairwise_map.2 (h.columns.imp fun {a b} hab => ?_)
      rw [hsame, hsame]
      exact hab
    · obtain ⟨old, hold, rfl⟩ := List.mem_map.1 hrow
      split
      · next heq => rw [← heq]; exact h.columns_le old hold
      · exact h.columns_le old hold
  | deleteColumn column =>
    cases hw
    exact h.deleteColumn column

theorem apply (h : store.WellKeyed) (w : Write) : (store.apply w).WellKeyed := by
  unfold ShadowStore.apply
  split
  · next reply later hw => exact h.write hw
  · exact h

theorem applyAll (h : store.WellKeyed) (ws : List Write) : (store.applyAll ws).WellKeyed := by
  induction ws generalizing store with
  | nil => exact h
  | cons w ws ih => exact ih (h.apply w)

end WellKeyed

/-- A table is known by its id. -/
theorem WellKeyed.table_eq (h : store.WellKeyed) {row other : TrackedTable}
    (hrow : row ∈ store.tables) (hother : other ∈ store.tables)
    (hid : row.tableId = other.tableId) : row = other :=
  List.inj_on_of_nodup_map
    (List.pairwise_map.2 (h.tables.imp fun hlt => Int.ne_of_lt hlt)) hrow hother hid

/-- A column is known by its id. -/
theorem WellKeyed.column_eq (h : store.WellKeyed) {column other : TrackedColumn}
    (hcolumn : column ∈ store.columns) (hother : other ∈ store.columns)
    (hid : column.columnId = other.columnId) : column = other :=
  List.inj_on_of_nodup_map
    (List.pairwise_map.2 (h.columns.imp fun hlt => Int.ne_of_lt hlt)) hcolumn hother hid

theorem Reachable.apply (h : store.Reachable) (w : Write) : (store.apply w).Reachable := by
  unfold ShadowStore.apply
  split
  · next hw => exact h.write hw
  · exact h

theorem Reachable.applyAll (h : store.Reachable) (ws : List Write) :
    (store.applyAll ws).Reachable := by
  induction ws generalizing store with
  | nil => exact h
  | cons w ws ih => exact ih (h.apply w)

theorem WellKeyed.empty : WellKeyed {} where
  tables := .nil
  tables_le := by simp
  columns := .nil
  columns_le := by simp

theorem Reachable.wellKeyed (h : store.Reachable) : store.WellKeyed := by
  induction h with
  | empty => exact .empty
  | write _ hw ih => exact ih.write hw

/-! ## The columns of a table -/

/-- Only columns of one table were changed. -/
structure ColumnsOnly (table : TableId) (before after : ShadowStore) : Prop where
  tables : after.tables = before.tables
  columnsOf : ∀ other, other ≠ table → after.columnsOf other = before.columnsOf other

theorem ColumnsOnly.refl (table : TableId) (store : ShadowStore) : ColumnsOnly table store store :=
  ⟨rfl, fun _ _ => rfl⟩

theorem ColumnsOnly.trans {table : TableId} {final : ShadowStore}
    (h : ColumnsOnly table store later) (h' : ColumnsOnly table later final) :
    ColumnsOnly table store final :=
  ⟨h'.tables.trans h.tables,
    fun other hne => (h'.columnsOf other hne).trans (h.columnsOf other hne)⟩

theorem ColumnsOnly.hasTable_eq {table : TableId} (h : ColumnsOnly table store later)
    (other : TableId) : later.hasTable other = store.hasTable other := by
  rw [hasTable, hasTable, h.tables]

/-- Two stores have the same row and the same columns of a table. -/
structure Alike (table : TableId) (before after : ShadowStore) : Prop where
  row : ∀ row : TrackedTable, row.tableId = table → (row ∈ after.tables ↔ row ∈ before.tables)
  columns : after.columnsOf table = before.columnsOf table

theorem Alike.refl (table : TableId) (store : ShadowStore) : Alike table store store :=
  ⟨fun _ _ => .rfl, rfl⟩

theorem Alike.trans {table : TableId} {final : ShadowStore} (h : Alike table store later)
    (h' : Alike table later final) : Alike table store final :=
  ⟨fun row hid => (h'.row row hid).trans (h.row row hid), h'.columns.trans h.columns⟩

theorem ColumnsOnly.alike {table other : TableId} (h : ColumnsOnly table store later)
    (hne : other ≠ table) : Alike other store later :=
  ⟨fun row _ => by rw [h.tables], h.columnsOf other hne⟩

theorem mem_columnsOf {table : TableId} {column : TrackedColumn} :
    column ∈ store.columnsOf table ↔ column ∈ store.columns ∧ column.tableId = table := by
  rw [columnsOf, List.mem_filter, decide_eq_true_iff]

/-- The columns of a table differ in their ids. -/
theorem WellKeyed.columnsOf_nodup (h : store.WellKeyed) (table : TableId) :
    ((store.columnsOf table).map (·.columnId)).Nodup :=
  List.pairwise_map.2 ((h.columns.filter _).imp fun hlt => Int.ne_of_lt hlt)

section

variable {table : TableId} {column : LiveColumn} {row : TrackedColumn} {rest : List TrackedColumn}

theorem columnsOf_insertColumn (h : store.hasTable table = true) :
    (store.apply (.insertColumn table column)).columnsOf table =
      store.columnsOf table ++ [.ofLive (store.lastColumnId + 1) table column] := by
  rw [apply_of_write (write_insertColumn h), columnsOf, List.filter_append, columnsOf,
    List.filter_cons_of_pos (by simp [TrackedColumn.ofLive]), List.filter_nil]

theorem columnsOnly_insertColumn (h : store.hasTable table = true) :
    ColumnsOnly table store (store.apply (.insertColumn table column)) := by
  rw [apply_of_write (write_insertColumn h)]
  refine ⟨rfl, fun other hne => ?_⟩
  have hnot : ¬table = other := fun h => hne h.symm
  rw [columnsOf, List.filter_append, columnsOf,
    List.filter_cons_of_neg (by simp [TrackedColumn.ofLive, hnot]), List.filter_nil,
    List.append_nil]

theorem hasColumn_of_mem {column : TrackedColumn} (h : column ∈ store.columns) :
    store.hasColumn column.columnId = true :=
  List.any_eq_true.2 ⟨column, h, decide_eq_true rfl⟩

/-- A row is replaced by one of its own id and table. -/
theorem columnsOf_updateColumn (h : store.WellKeyed) {old : TrackedColumn}
    (hold : old ∈ store.columns) (hid : row.columnId = old.columnId)
    (htable : row.tableId = old.tableId) (other : TableId) :
    (store.apply (.updateColumn row)).columnsOf other =
      (store.columnsOf other).map fun c => if c.columnId = row.columnId then row else c := by
  rw [apply_of_write (write_updateColumn (hid ▸ hasColumn_of_mem hold)), columnsOf, columnsOf,
    List.filter_map]
  congr 1
  refine List.filter_congr ?_
  intro c hc
  rw [Function.comp_apply]
  split
  · next heq => rw [htable, h.column_eq hc hold (heq.trans hid)]
  · rfl

/-- Where ids differ, only the row of one id is replaced. -/
theorem columnsOf_updateColumn_perm (h : store.WellKeyed) {old : TrackedColumn}
    (hrows : (store.columnsOf table).Perm (old :: rest)) (hid : row.columnId = old.columnId)
    (htable : row.tableId = old.tableId) :
    ((store.apply (.updateColumn row)).columnsOf table).Perm (row :: rest) := by
  have hold := mem_columnsOf.1 (hrows.symm.subset List.mem_cons_self)
  -- The other rows of the table have other ids, and stay as they are.
  have hnodup := ((hrows.map (·.columnId)).nodup_iff).1 (h.columnsOf_nodup table)
  rw [List.map_cons, List.nodup_cons] at hnodup
  have hrest : rest.map (fun c => if c.columnId = row.columnId then row else c) = rest := by
    refine (List.map_congr_left fun c hc => ?_).trans (List.map_id rest)
    refine if_neg fun heq => hnodup.1 ?_
    rw [← hid, ← heq]
    exact List.mem_map_of_mem hc
  rw [columnsOf_updateColumn h hold.1 hid htable]
  refine (hrows.map _).trans ?_
  rw [List.map_cons, if_pos hid.symm, hrest]

theorem columnsOnly_updateColumn (h : store.WellKeyed) {old : TrackedColumn}
    (hold : old ∈ store.columnsOf table) (hid : row.columnId = old.columnId)
    (htable : row.tableId = old.tableId) :
    ColumnsOnly table store (store.apply (.updateColumn row)) := by
  rw [mem_columnsOf] at hold
  refine ⟨?_, fun other hne => ?_⟩
  · rw [apply_of_write (write_updateColumn (hid ▸ hasColumn_of_mem hold.1))]
  · rw [columnsOf_updateColumn h hold.1 hid htable]
    refine (List.map_congr_left fun c hc => ?_).trans (List.map_id _)
    rw [mem_columnsOf] at hc
    refine if_neg fun heq => hne ?_
    rw [← hc.2, h.column_eq hc.1 hold.1 (heq.trans hid), hold.2]

theorem columnsOf_deleteColumn (id : ColumnId) (other : TableId) :
    (store.apply (.deleteColumn id)).columnsOf other =
      (store.columnsOf other).filter (·.columnId ≠ id) := by
  change (store.columns.filter _).filter _ = _
  rw [columnsOf, List.filter_filter, List.filter_filter]
  simp only [Bool.and_comm]

theorem columnsOf_deleteColumn_perm (h : store.WellKeyed)
    (hrows : (store.columnsOf table).Perm (row :: rest)) :
    ((store.apply (.deleteColumn row.columnId)).columnsOf table).Perm rest := by
  have hnodup := ((hrows.map (·.columnId)).nodup_iff).1 (h.columnsOf_nodup table)
  rw [List.map_cons, List.nodup_cons] at hnodup
  rw [columnsOf_deleteColumn]
  refine (hrows.filter _).trans ?_
  rw [List.filter_cons_of_neg (by simp), List.filter_eq_self.2]
  exact fun c hc => decide_eq_true fun heq => hnodup.1 (heq ▸ List.mem_map_of_mem hc)

theorem columnsOnly_deleteColumn (h : store.WellKeyed) (hrow : row ∈ store.columnsOf table) :
    ColumnsOnly table store (store.apply (.deleteColumn row.columnId)) := by
  refine ⟨rfl, fun other hne => ?_⟩
  rw [columnsOf_deleteColumn, List.filter_eq_self]
  rw [mem_columnsOf] at hrow
  refine fun c hc => decide_eq_true fun heq => hne ?_
  rw [mem_columnsOf] at hc
  rw [← hc.2, h.column_eq hc.1 hrow.1 heq, hrow.2]

end

end ShadowStore

end ShadowCatalog
