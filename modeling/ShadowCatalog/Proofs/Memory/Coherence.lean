import ShadowCatalog.Proofs.DisplayOrder
import ShadowCatalog.Proofs.Memory.ShadowStore

/-!
# Coherent shadow catalogs

A shadow catalog is *coherent* if its tables differ in their physical ids, each of
its columns is one of its tables (`ShadowStore.Tracked`), no two of them are at one
position of a table, and each table lists each of its columns once
(`ShadowStore.Coherent`).

A change may well break this. Of each kind of change there is a condition under
which it does not (`ShadowStore.Admits`, `ShadowStore.Coherent.apply`); most kinds
are admitted anyway. The conditions speak of rows that are found by their ids, so
that changes keep a catalog coherent that is well keyed too: they keep it *sound*
(`ShadowStore.Sound.applyAll_of_isPrefix`).
-/

namespace ShadowCatalog.ShadowStore

/-- Each column is one of a tracked table. -/
def Tracked (store : ShadowStore) : Prop :=
  ∀ column ∈ store.columns, ∃ table ∈ store.tables, table.tableId = column.tableId

/-- A change leaves each column in its table. -/
def KeepsTable (store : ShadowStore) : Write → Prop
  | .updateColumn column =>
    ∀ row ∈ store.columns, row.columnId = column.columnId → row.tableId = column.tableId
  | _ => True

instance (store : ShadowStore) : DecidablePred store.KeepsTable
  | .updateColumn column => inferInstanceAs (Decidable (∀ row ∈ store.columns,
      row.columnId = column.columnId → row.tableId = column.tableId))
  | .insertTable .. | .renameTable .. | .updatePhysicalId .. | .deleteTable _ | .saveLayout ..
  | .setLabelColumn .. | .insertColumn .. | .deleteColumn _ => .isTrue trivial

/-- What is tracked fits together. -/
structure Coherent (store : ShadowStore) : Prop where
  /-- Tables differ in their physical ids. -/
  physicalIds : store.tables.Pairwise (·.physicalId ≠ ·.physicalId)
  /-- Each column is one of a tracked table. -/
  tracked : ∀ column ∈ store.columns, ∃ table ∈ store.tables, table.tableId = column.tableId
  /-- The columns of a table differ in their positions. -/
  positions : store.columns.Pairwise fun a b => a.tableId = b.tableId → a.position ≠ b.position
  /-- A table lists each of its columns once. -/
  displayOrder : ∀ table ∈ store.tables,
    table.displayOrder.Nodup ∧ table.displayOrder.Perm table.columnIds.toList

/-- A change does not break coherence. -/
def Admits (store : ShadowStore) : Write → Prop
  | .insertTable _ physicalId => ∀ row ∈ store.tables, row.physicalId ≠ physicalId
  | .updatePhysicalId _ physicalId => ∀ row ∈ store.tables, row.physicalId ≠ physicalId
  | .saveLayout _ columnIds displayOrder => displayOrder.Perm columnIds.toList
  | .insertColumn table column =>
    ∀ row ∈ store.columns, row.tableId = table → row.position ≠ column.position
  | .updateColumn column =>
    ∃ row ∈ store.columns, row.columnId = column.columnId ∧ row.tableId = column.tableId ∧
      row.position = column.position
  | .renameTable .. | .deleteTable _ | .setLabelColumn .. | .deleteColumn _ => True

/-- Each change of a list is admitted after those before it. -/
abbrev AdmitsAll (store : ShadowStore) (ws : List Write) : Prop := store.Each Admits ws

variable {store later : ShadowStore}

/-! ## Columns of tracked tables -/

namespace Tracked

theorem empty : Tracked {} := by simp [Tracked]

theorem changeRow (h : store.Tracked) {table : TableId} {change : TrackedTable → TrackedTable}
    (hid : ∀ row, (change row).tableId = row.tableId) (writes : Nat) :
    Tracked { store with tables := changeRow table change store.tables, writes } := by
  intro column hcolumn
  obtain ⟨row, hrow, heq⟩ := h column hcolumn
  refine ⟨_, List.mem_map_of_mem hrow, ?_⟩
  split
  · exact (hid row).trans heq
  · exact heq

theorem insertTable (h : store.Tracked) (name : String) (physicalId : PhysicalId) :
    (store.insertTable name physicalId).2.Tracked := by
  intro column hcolumn
  obtain ⟨row, hrow, heq⟩ := h column hcolumn
  exact ⟨row, List.mem_append_left _ hrow, heq⟩

theorem deleteTable (h : store.Tracked) (table : TableId) : (store.deleteTable table).Tracked := by
  intro column hcolumn
  obtain ⟨hcolumn, hne⟩ := List.mem_filter.1 hcolumn
  obtain ⟨row, hrow, heq⟩ := h column hcolumn
  refine ⟨row, List.mem_filter.2 ⟨hrow, ?_⟩, heq⟩
  rw [heq]
  exact hne

theorem insertColumn (h : store.Tracked) {table : TableId} {column : LiveColumn}
    (htable : store.hasTable table = true) (id last : ColumnId) (writes : Nat) :
    Tracked { store with
      columns := store.columns ++ [.ofLive id table column], lastColumnId := last, writes } := by
  intro row hrow
  rcases List.mem_append.1 hrow with hrow | hrow
  · exact h row hrow
  · rw [List.mem_singleton.1 hrow]
    exact hasTable_iff.1 htable

theorem updateColumn (h : store.Tracked) {column : TrackedColumn}
    (hkeeps : store.KeepsTable (.updateColumn column)) (writes : Nat) :
    Tracked { store with
      columns := store.columns.map fun row => if row.columnId = column.columnId then column else row
      writes } := by
  intro row hrow
  obtain ⟨old, hold, rfl⟩ := List.mem_map.1 hrow
  split
  · next heq => exact hkeeps old hold heq ▸ h old hold
  · exact h old hold

theorem deleteColumn (h : store.Tracked) (column : ColumnId) :
    (store.deleteColumn column).Tracked :=
  fun row hrow => h row (List.mem_filter.1 hrow).1

end Tracked

/-! ## Coherence -/

namespace Coherent

theorem empty : Coherent {} where
  physicalIds := .nil
  tracked := by simp
  positions := .nil
  displayOrder := by simp

/-- The row of one table may be changed where it then differs from the others, and
    lists its columns. -/
theorem changeRow (h : store.Coherent) (hkeyed : store.WellKeyed) {table : TableId}
    {change : TrackedTable → TrackedTable} {writes : Nat}
    (hid : ∀ row, (change row).tableId = row.tableId)
    (hphysical : ∀ row ∈ store.tables, row.tableId = table →
      ∀ other ∈ store.tables, other.tableId ≠ table →
        (change row).physicalId ≠ other.physicalId)
    (hlisted : ∀ row ∈ store.tables, (change row).displayOrder.Nodup ∧
      (change row).displayOrder.Perm (change row).columnIds.toList) :
    { store with tables := changeRow table change store.tables, writes }.Coherent where
  physicalIds := by
    refine List.pairwise_map.2 ((h.physicalIds.and hkeyed.tables).imp_of_mem ?_)
    -- One of the two rows may be the one that is changed, but not both.
    rintro a b ha hb ⟨hne, hlt⟩
    split
    · next hat =>
      rw [if_neg fun hbt => Int.ne_of_lt hlt (hat.trans hbt.symm)]
      exact hphysical a ha hat b hb fun hbt => Int.ne_of_lt hlt (hat.trans hbt.symm)
    · next hat =>
      split
      · next hbt => exact (hphysical b hb hbt a ha hat).symm
      · exact hne
  tracked := Tracked.changeRow h.tracked hid writes
  positions := h.positions
  displayOrder row hrow := by
    rcases mem_changeRow.1 hrow with ⟨hrow, _⟩ | ⟨old, hold, _, rfl⟩
    · exact h.displayOrder row hrow
    · exact hlisted old hold

theorem insertTable (h : store.Coherent) {name : String} {physicalId : PhysicalId}
    (hfree : ∀ row ∈ store.tables, row.physicalId ≠ physicalId) :
    (store.insertTable name physicalId).2.Coherent where
  physicalIds := by
    refine List.pairwise_append.2 ⟨h.physicalIds, List.pairwise_singleton _ _, fun a ha b hb => ?_⟩
    rw [List.mem_singleton.1 hb]
    exact hfree a ha
  tracked := Tracked.insertTable h.tracked name physicalId
  positions := h.positions
  displayOrder row hrow := by
    rcases List.mem_append.1 hrow with hrow | hrow
    · exact h.displayOrder row hrow
    · rw [List.mem_singleton.1 hrow]
      exact ⟨.nil, .nil⟩

theorem deleteTable (h : store.Coherent) (table : TableId) :
    (store.deleteTable table).Coherent where
  physicalIds := h.physicalIds.filter _
  tracked := Tracked.deleteTable h.tracked table
  positions := h.positions.filter _
  displayOrder row hrow := h.displayOrder row (List.mem_filter.1 hrow).1

theorem insertColumn (h : store.Coherent) {table : TableId} {column : LiveColumn}
    (htable : store.hasTable table = true)
    (hfree : ∀ row ∈ store.columns, row.tableId = table → row.position ≠ column.position)
    (id last : ColumnId) (writes : Nat) :
    Coherent { store with
      columns := store.columns ++ [.ofLive id table column], lastColumnId := last, writes } where
  physicalIds := h.physicalIds
  tracked := Tracked.insertColumn h.tracked htable id last writes
  positions := by
    refine List.pairwise_append.2 ⟨h.positions, List.pairwise_singleton _ _, fun a ha b hb => ?_⟩
    rw [List.mem_singleton.1 hb]
    exact hfree a ha
  displayOrder := h.displayOrder

/-- A row may be replaced by one at the same place. -/
theorem updateColumn (h : store.Coherent) (hkeyed : store.WellKeyed) {column : TrackedColumn}
    (hrow : ∃ row ∈ store.columns, row.columnId = column.columnId ∧
      row.tableId = column.tableId ∧ row.position = column.position) (writes : Nat) :
    Coherent { store with
      columns := store.columns.map fun row => if row.columnId = column.columnId then column else row
      writes } := by
  obtain ⟨old, hold, hid, htable, hposition⟩ := hrow
  -- A row that is replaced is the old one, and the new one takes its place.
  have hsame (row : TrackedColumn) (hrow : row ∈ store.columns) :
      (if row.columnId = column.columnId then column else row).tableId = row.tableId ∧
        (if row.columnId = column.columnId then column else row).position = row.position := by
    split
    · next heq =>
      rw [hkeyed.column_eq hrow hold (heq.trans hid.symm)]
      exact ⟨htable.symm, hposition.symm⟩
    · exact ⟨rfl, rfl⟩
  refine ⟨h.physicalIds, Tracked.updateColumn h.tracked (fun row hrow heq => ?_) writes, ?_,
    h.displayOrder⟩
  · rw [hkeyed.column_eq hrow hold (heq.trans hid.symm), htable]
  · refine List.pairwise_map.2 (h.positions.imp_of_mem fun {a b} ha hb hab => ?_)
    rw [(hsame a ha).1, (hsame a ha).2, (hsame b hb).1, (hsame b hb).2]
    exact hab

theorem deleteColumn (h : store.Coherent) (column : ColumnId) :
    (store.deleteColumn column).Coherent where
  physicalIds := h.physicalIds
  tracked := Tracked.deleteColumn h.tracked column
  positions := h.positions.filter _
  displayOrder := h.displayOrder

/-- The presentation or the name of a table may be changed. -/
theorem changePresentation (h : store.Coherent) (hkeyed : store.WellKeyed) {table : TableId}
    {change : TrackedTable → TrackedTable} {writes : Nat}
    (hsame : ∀ row, (change row).tableId = row.tableId ∧ (change row).physicalId = row.physicalId)
    (hlisted : ∀ row ∈ store.tables, (change row).displayOrder.Nodup ∧
      (change row).displayOrder.Perm (change row).columnIds.toList) :
    { store with
      tables := ShadowStore.changeRow table change store.tables, writes }.Coherent := by
  refine h.changeRow hkeyed (fun row => (hsame row).1) (fun row hrow hid other hother hne => ?_)
    hlisted
  rw [(hsame row).2]
  intro heq
  have := List.inj_on_of_nodup_map (List.pairwise_map.2 h.physicalIds) hrow hother heq
  exact hne (this ▸ hid)

/-- A change that is admitted leaves a coherent catalog. -/
theorem apply (h : store.Coherent) (hkeyed : store.WellKeyed) {w : Write}
    (hadmits : store.Admits w) : (store.apply w).Coherent := by
  cases hw : store.write w with
  | error cause => rwa [ShadowStore.apply, hw]
  | ok answer =>
    obtain ⟨reply, later⟩ := answer
    rw [apply_of_write hw]
    cases w with
    | insertTable name physicalId =>
      cases hw
      exact h.insertTable hadmits
    | renameTable table name =>
      obtain ⟨_, rfl⟩ := of_changeTable_eq_ok hw
      exact h.changePresentation hkeyed (fun _ => ⟨rfl, rfl⟩) h.displayOrder
    | updatePhysicalId table physicalId =>
      obtain ⟨_, rfl⟩ := of_changeTable_eq_ok hw
      exact h.changeRow hkeyed (fun _ => rfl)
        (fun _ _ _ other hother _ => (hadmits other hother).symm) h.displayOrder
    | deleteTable table =>
      cases hw
      exact h.deleteTable table
    | saveLayout table columnIds displayOrder =>
      obtain ⟨_, rfl⟩ := of_changeTable_eq_ok hw
      have hperm : displayOrder.Perm columnIds.toList := hadmits
      exact h.changePresentation hkeyed (fun _ => ⟨rfl, rfl⟩)
        fun _ _ => ⟨hperm.nodup_iff.2 columnIds.nodup_toList, hperm⟩
    | setLabelColumn table label =>
      obtain ⟨_, rfl⟩ := of_changeTable_eq_ok hw
      exact h.changePresentation hkeyed (fun _ => ⟨rfl, rfl⟩) h.displayOrder
    | insertColumn table column =>
      obtain ⟨htable, _, rfl⟩ := of_insertColumn_eq_ok hw
      exact h.insertColumn htable hadmits _ _ _
    | updateColumn column =>
      obtain ⟨_, rfl⟩ := of_updateColumn_eq_ok hw
      exact h.updateColumn hkeyed hadmits _
    | deleteColumn column =>
      cases hw
      exact h.deleteColumn column

end Coherent

/-- Rows are in the order of their ids, and what is tracked fits together. -/
structure Sound (store : ShadowStore) : Prop extends WellKeyed store, Coherent store

namespace Sound

theorem empty : Sound {} := ⟨.empty, .empty⟩

theorem apply (h : store.Sound) {w : Write} (hadmits : store.Admits w) : (store.apply w).Sound :=
  ⟨h.toWellKeyed.apply w, h.toCoherent.apply h.toWellKeyed hadmits⟩

/-- Changes that are admitted one after the other leave a sound catalog, and so do
    the first few of them. -/
theorem applyAll_of_isPrefix (h : store.Sound) {few ws : List Write} (hadmits : store.AdmitsAll ws)
    (hfew : few <+: ws) : (store.applyAll few).Sound := by
  obtain ⟨rest, rfl⟩ := hfew
  have hfirst := (each_append.1 hadmits).1
  clear hadmits
  induction few generalizing store with
  | nil => exact h
  | cons w few ih => exact ih (h.apply hfirst.1) hfirst.2

end Sound

end ShadowCatalog.ShadowStore
