import ShadowCatalog.Proofs.Memory.ShadowStore

/-!
# Changes that show

A change *departs* from a store if it gives a row of it another value, removes a row
of it, or adds one (`ShadowStore.Departs`). Such a change shows: whatever was changed
before, it leaves other rows than those of that store, as it leaves a row of it with
another value, or without one, or a row with an id that was not given there
(`rows_ne_apply`). So changes that all depart from the store at their beginning cannot
cancel each other out: the last of them shows (`rows_ne_applyAll`).

Every change that can be made is counted (`writes_applyAll`).
-/

namespace ShadowCatalog

/-- The layout that a table has. -/
def TrackedTable.layout (table : TrackedTable) : IdSet × List ColumnId :=
  (table.columnIds, table.displayOrder)

namespace ShadowStore

variable {origin store later : ShadowStore} {w : Write}

/-! ## Counters -/

/-- What every change that can be made does to the counters of a store: it is counted, and
    ids are only given in ascending order. -/
theorem counters_of_write {reply : w.Reply} (h : store.write w = .ok (reply, later)) :
    later.writes = store.writes + 1 ∧ store.lastTableId ≤ later.lastTableId ∧
      store.lastColumnId ≤ later.lastColumnId := by
  cases w with
  | insertTable name physicalId =>
    cases h
    exact ⟨rfl, Int.le_add_one (Int.le_refl _), Int.le_refl _⟩
  | insertColumn table column =>
    obtain ⟨_, _, rfl⟩ := of_insertColumn_eq_ok h
    exact ⟨rfl, Int.le_refl _, Int.le_add_one (Int.le_refl _)⟩
  | updateColumn column =>
    obtain ⟨_, rfl⟩ := of_updateColumn_eq_ok h
    exact ⟨rfl, Int.le_refl _, Int.le_refl _⟩
  | deleteTable table =>
    cases h
    exact ⟨rfl, Int.le_refl _, Int.le_refl _⟩
  | deleteColumn column =>
    cases h
    exact ⟨rfl, Int.le_refl _, Int.le_refl _⟩
  | renameTable table name =>
    obtain ⟨_, rfl⟩ := of_changeTable_eq_ok h
    exact ⟨rfl, Int.le_refl _, Int.le_refl _⟩
  | updatePhysicalId table physicalId =>
    obtain ⟨_, rfl⟩ := of_changeTable_eq_ok h
    exact ⟨rfl, Int.le_refl _, Int.le_refl _⟩
  | saveLayout table columnIds displayOrder =>
    obtain ⟨_, rfl⟩ := of_changeTable_eq_ok h
    exact ⟨rfl, Int.le_refl _, Int.le_refl _⟩
  | setLabelColumn table label =>
    obtain ⟨_, rfl⟩ := of_changeTable_eq_ok h
    exact ⟨rfl, Int.le_refl _, Int.le_refl _⟩

theorem writes_applyAll {ws : List Write} (h : store.AcceptsAll ws) :
    (store.applyAll ws).writes = store.writes + ws.length := by
  induction ws generalizing store with
  | nil => rfl
  | cons w ws ih =>
    obtain ⟨⟨reply, later, hw⟩, hws⟩ := h
    rw [applyAll_cons, ih hws, apply_of_write hw, (counters_of_write hw).1, List.length_cons,
      Nat.add_assoc, Nat.add_comm 1]

/-- The ids that were given in one store were also given in another. -/
def GivenBy (origin store : ShadowStore) : Prop :=
  origin.lastTableId ≤ store.lastTableId ∧ origin.lastColumnId ≤ store.lastColumnId

theorem GivenBy.applyAll (h : GivenBy origin store) (ws : List Write) :
    GivenBy origin (store.applyAll ws) := by
  induction ws generalizing store with
  | nil => exact h
  | cons w ws ih =>
    refine ih ?_
    unfold apply
    split
    · next later hw =>
      obtain ⟨_, htables, hcolumns⟩ := counters_of_write hw
      exact ⟨Int.le_trans h.1 htables, Int.le_trans h.2 hcolumns⟩
    · exact h

/-! ## Departing -/

/-- A change departs from a store: it gives a row of it another value or removes one, or it
    is about a row that is not there. -/
def Departs (origin : ShadowStore) : Write → Prop
  | .insertTable .. => True
  | .renameTable table name => ∃ row ∈ origin.tables, row.tableId = table ∧ row.name ≠ name
  | .updatePhysicalId table physicalId =>
    ∃ row ∈ origin.tables, row.tableId = table ∧ row.physicalId ≠ physicalId
  | .deleteTable table => ∃ row ∈ origin.tables, row.tableId = table
  | .saveLayout table columnIds displayOrder =>
    origin.lastTableId < table ∨
      ∃ row ∈ origin.tables, row.tableId = table ∧ row.layout ≠ (columnIds, displayOrder)
  | .setLabelColumn table label =>
    ∃ row ∈ origin.tables, row.tableId = table ∧ row.labelColumn ≠ label
  | .insertColumn .. => True
  | .updateColumn column =>
    ∃ row ∈ origin.columns, row.columnId = column.columnId ∧ row ≠ column
  | .deleteColumn column => ∃ row ∈ origin.columns, row.columnId = column

/-- Two stores have the same rows. -/
def SameRows (origin store : ShadowStore) : Prop :=
  store.tables = origin.tables ∧ store.columns = origin.columns

/-- A row that gets another value is not there any more. -/
theorem not_mem_changeRow {table : TableId} {change : TrackedTable → TrackedTable}
    {rows : List TrackedTable} {row : TrackedTable} (hid : row.tableId = table)
    (hchange : ∀ old, row ≠ change old) : row ∉ changeRow table change rows := by
  rw [mem_changeRow]
  rintro (⟨_, hne⟩ | ⟨old, _, _, heq⟩)
  · exact hne hid
  · exact hchange old heq

/-- A change that departs from a store leaves other rows than it has, whatever was changed
    before. -/
theorem rows_ne_apply (h : origin.WellKeyed) (hgiven : GivenBy origin store)
    (haccepts : store.Accepts w) (hdeparts : origin.Departs w) :
    ¬SameRows origin (store.apply w) := by
  obtain ⟨reply, later, hw⟩ := haccepts
  rw [apply_of_write hw]
  rintro ⟨htables, hcolumns⟩
  cases w with
  -- A new row has an id that was not given before.
  | insertTable name physicalId =>
    cases hw
    have hnew : .new (store.lastTableId + 1) name physicalId ∈ origin.tables :=
      htables ▸ List.mem_append_right _ List.mem_cons_self
    exact Int.not_le.2 (Int.lt_add_one_of_le hgiven.1) (h.tables_le _ hnew)
  | insertColumn table column =>
    obtain ⟨_, _, rfl⟩ := of_insertColumn_eq_ok hw
    have hnew : .ofLive (store.lastColumnId + 1) table column ∈ origin.columns :=
      hcolumns ▸ List.mem_append_right _ List.mem_cons_self
    exact Int.not_le.2 (Int.lt_add_one_of_le hgiven.2) (h.columns_le _ hnew)
  | renameTable table name =>
    obtain ⟨_, rfl⟩ := of_changeTable_eq_ok hw
    obtain ⟨row, hrow, hid, hne⟩ := hdeparts
    refine not_mem_changeRow hid (fun old heq => hne ?_) (htables ▸ hrow)
    rw [heq]
  | updatePhysicalId table physicalId =>
    obtain ⟨_, rfl⟩ := of_changeTable_eq_ok hw
    obtain ⟨row, hrow, hid, hne⟩ := hdeparts
    refine not_mem_changeRow hid (fun old heq => hne ?_) (htables ▸ hrow)
    rw [heq]
  | setLabelColumn table label =>
    obtain ⟨_, rfl⟩ := of_changeTable_eq_ok hw
    obtain ⟨row, hrow, hid, hne⟩ := hdeparts
    refine not_mem_changeRow hid (fun old heq => hne ?_) (htables ▸ hrow)
    rw [heq]
  | saveLayout table columnIds displayOrder =>
    obtain ⟨hhas, rfl⟩ := of_changeTable_eq_ok hw
    rcases hdeparts with hnew | ⟨row, hrow, hid, hne⟩
    · obtain ⟨row, hrow, rfl⟩ := hasTable_iff.1 hhas
      have hkept : { row with columnIds, displayOrder } ∈ origin.tables :=
        htables ▸ mem_changeRow.2 (.inr ⟨row, hrow, rfl, rfl⟩)
      have hle := h.tables_le _ hkept
      exact Int.not_le.2 hnew hle
    · refine not_mem_changeRow hid (fun old heq => hne ?_) (htables ▸ hrow)
      rw [heq, TrackedTable.layout]
  | deleteTable table =>
    cases hw
    obtain ⟨row, hrow, rfl⟩ := hdeparts
    rw [← htables] at hrow
    exact absurd rfl (of_decide_eq_true (List.mem_filter.1 hrow).2)
  | updateColumn column =>
    obtain ⟨_, rfl⟩ := of_updateColumn_eq_ok hw
    obtain ⟨row, hrow, hid, hne⟩ := hdeparts
    rw [← hcolumns] at hrow
    obtain ⟨old, _, heq⟩ := List.mem_map.1 hrow
    split at heq
    · exact hne heq.symm
    · next hother => exact hother (heq ▸ hid)
  | deleteColumn column =>
    cases hw
    obtain ⟨row, hrow, rfl⟩ := hdeparts
    rw [← hcolumns] at hrow
    exact absurd rfl (of_decide_eq_true (List.mem_filter.1 hrow).2)

/-- Changes that all depart from a store leave other rows than it has. -/
theorem rows_ne_applyAll (h : store.WellKeyed) {ws : List Write} (haccepts : store.AcceptsAll ws)
    (hdeparts : ∀ w ∈ ws, store.Departs w) (hne : ws ≠ []) :
    ¬SameRows store (store.applyAll ws) := by
  obtain ⟨init, last, rfl⟩ : ∃ init last, ws = init ++ [last] :=
    ⟨ws.dropLast, ws.getLast hne, (List.dropLast_append_getLast hne).symm⟩
  obtain ⟨_, hlast, _⟩ := each_append.1 haccepts
  have hgiven : GivenBy store (store.applyAll init) :=
    GivenBy.applyAll ⟨Int.le_refl _, Int.le_refl _⟩ init
  rw [applyAll_append]
  exact rows_ne_apply h hgiven hlast
    (hdeparts last (List.mem_append_right _ (List.mem_singleton_self _)))

end ShadowStore

end ShadowCatalog
