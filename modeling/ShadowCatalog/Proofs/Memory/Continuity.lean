import ShadowCatalog.Proofs.DisplayOrder
import ShadowCatalog.Proofs.Memory.Departure

/-!
# Display orders that go on

The display order of a table is *orderly* changed if it is made from the one that is stored,
for the columns that are there (`ShadowStore.Orderly`). Where only such changes are made, and
the orders are merged, every display order goes on from those that it had before
(`ShadowStore.Continues`, `ShadowStore.continues_applyAll`).

An order goes on over many changes since no id comes back: an id that leaves an order is not
that of a column any more, and ids are given only once (`ShadowStore.Continues.not_lists`).
For this the ids that are listed must have been given, which orderly changes see to
(`ShadowStore.Listing`).
-/

namespace ShadowCatalog.ShadowStore

variable {policy : OrderPolicy} {store first middle last : ShadowStore} {w : Write}
  {table : TableId} {id : ColumnId}

/-- The display order of a table lists an id. -/
def Lists (store : ShadowStore) (table : TableId) (id : ColumnId) : Prop :=
  ∃ row ∈ store.tables, row.tableId = table ∧ id ∈ row.displayOrder

/-- A table has a column of an id. -/
def HasColumnOf (store : ShadowStore) (table : TableId) (id : ColumnId) : Prop :=
  ∃ column ∈ store.columns, column.tableId = table ∧ column.columnId = id

/-- Display orders list ids that were given, each of them once. -/
structure Listing (store : ShadowStore) : Prop extends WellKeyed store where
  nodup : ∀ row ∈ store.tables, row.displayOrder.Nodup
  given : ∀ row ∈ store.tables, ∀ id ∈ row.displayOrder, id ≤ store.lastColumnId

/-- A layout is that of the columns which are there, in an order made from the one which is
    stored. A column stays in its table. -/
def Orderly (policy : OrderPolicy) (store : ShadowStore) : Write → Prop
  | .saveLayout table columnIds displayOrder =>
    (∀ id, id ∈ columnIds ↔ store.HasColumnOf table id) ∧
      ∀ row ∈ store.tables, row.tableId = table → displayOrder = policy row.displayOrder columnIds
  | .updateColumn column => store.HasColumnOf column.tableId column.columnId
  | _ => True

/-- What was tracked before goes on: the ids of new rows are new, and each display order goes
    on from the one before. An id that left an order is not that of a column any more, and
    one that joined it is. -/
structure Continues (before after : ShadowStore) : Prop where
  given : GivenBy before after
  tracked : ∀ row ∈ after.tables, row.tableId ≤ before.lastTableId →
    ∃ old ∈ before.tables, old.tableId = row.tableId
  columns : ∀ table id, after.HasColumnOf table id → id ≤ before.lastColumnId →
    before.HasColumnOf table id
  listed : ∀ table id, after.Lists table id → id ≤ before.lastColumnId →
    before.Lists table id ∨ before.HasColumnOf table id
  left : ∀ old ∈ before.tables, ∀ row ∈ after.tables, row.tableId = old.tableId →
    ∀ id ∈ old.displayOrder, id ∉ row.displayOrder → ¬after.HasColumnOf row.tableId id
  order : ∀ old ∈ before.tables, ∀ row ∈ after.tables, row.tableId = old.tableId →
    DisplayOrder.Extends old.displayOrder row.displayOrder

/-! ## One change -/

/-- Where one row is changed, but not its display order, each order is one from before. -/
theorem order_of_mem_changeRow {rows : List TrackedTable} {change : TrackedTable → TrackedTable}
    {row : TrackedTable} (h : row ∈ changeRow table change rows)
    (hkeeps : ∀ old, (change old).tableId = old.tableId ∧
      (change old).displayOrder = old.displayOrder) :
    ∃ old ∈ rows, old.tableId = row.tableId ∧ row.displayOrder = old.displayOrder := by
  rcases mem_changeRow.1 h with ⟨hrow, _⟩ | ⟨old, hold, _, rfl⟩
  · exact ⟨row, hrow, rfl, rfl⟩
  · exact ⟨old, hold, (hkeeps old).1.symm, (hkeeps old).2⟩

/-- After a change, a row has the order of one that was there before, or that of the layout
    that was saved, or it is new. -/
theorem row_of_mem_apply {row : TrackedTable} (h : row ∈ (store.apply w).tables) :
    (∃ old ∈ store.tables, old.tableId = row.tableId ∧
      (row.displayOrder = old.displayOrder ∨
        ∃ columnIds, w = .saveLayout row.tableId columnIds row.displayOrder)) ∨
    store.lastTableId < row.tableId ∧ row.displayOrder = [] := by
  by_cases hold : row ∈ store.tables
  · exact .inl ⟨row, hold, rfl, .inl rfl⟩
  cases hw : store.write w with
  | error cause =>
    rw [apply, hw] at h
    exact absurd h hold
  | ok answer =>
    obtain ⟨reply, later⟩ := answer
    rw [apply_of_write hw] at h
    cases w with
    | insertTable name physicalId =>
      cases hw
      rcases List.mem_append.1 h with h | h
      · exact absurd h hold
      · rw [List.mem_singleton.1 h]
        exact .inr ⟨Int.lt_add_one_of_le (Int.le_refl _), rfl⟩
    | renameTable table name =>
      obtain ⟨_, rfl⟩ := of_changeTable_eq_ok hw
      obtain ⟨old, hmem, hid, hsame⟩ := order_of_mem_changeRow h fun _ => ⟨rfl, rfl⟩
      exact .inl ⟨old, hmem, hid, .inl hsame⟩
    | updatePhysicalId table physicalId =>
      obtain ⟨_, rfl⟩ := of_changeTable_eq_ok hw
      obtain ⟨old, hmem, hid, hsame⟩ := order_of_mem_changeRow h fun _ => ⟨rfl, rfl⟩
      exact .inl ⟨old, hmem, hid, .inl hsame⟩
    | deleteTable table =>
      cases hw
      exact absurd (List.mem_filter.1 h).1 hold
    | saveLayout table columnIds displayOrder =>
      obtain ⟨_, rfl⟩ := of_changeTable_eq_ok hw
      rcases mem_changeRow.1 h with ⟨h, _⟩ | ⟨old, hmem, rfl, rfl⟩
      · exact absurd h hold
      · exact .inl ⟨old, hmem, rfl, .inr ⟨columnIds, rfl⟩⟩
    | setLabelColumn table label =>
      obtain ⟨_, rfl⟩ := of_changeTable_eq_ok hw
      obtain ⟨old, hmem, hid, hsame⟩ := order_of_mem_changeRow h fun _ => ⟨rfl, rfl⟩
      exact .inl ⟨old, hmem, hid, .inl hsame⟩
    | insertColumn table column =>
      obtain ⟨_, _, rfl⟩ := of_insertColumn_eq_ok hw
      exact absurd h hold
    | updateColumn column =>
      obtain ⟨_, rfl⟩ := of_updateColumn_eq_ok hw
      exact absurd h hold
    | deleteColumn column =>
      cases hw
      exact absurd h hold

/-- After an orderly change, a column is one that was there before, in the same table, or it
    is new. -/
theorem column_of_mem_apply (horderly : store.Orderly policy w)
    {column : TrackedColumn} (hcolumn : column ∈ (store.apply w).columns) :
    store.HasColumnOf column.tableId column.columnId ∨ store.lastColumnId < column.columnId := by
  by_cases hold : column ∈ store.columns
  · exact .inl ⟨column, hold, rfl, rfl⟩
  cases hw : store.write w with
  | error cause =>
    rw [apply, hw] at hcolumn
    exact absurd hcolumn hold
  | ok answer =>
    obtain ⟨reply, later⟩ := answer
    rw [apply_of_write hw] at hcolumn
    cases w with
    | insertColumn table live =>
      obtain ⟨_, _, rfl⟩ := of_insertColumn_eq_ok hw
      rcases List.mem_append.1 hcolumn with hcolumn | hcolumn
      · exact absurd hcolumn hold
      · rw [List.mem_singleton.1 hcolumn]
        exact .inr (Int.lt_add_one_of_le (Int.le_refl _))
    | updateColumn updated =>
      obtain ⟨_, rfl⟩ := of_updateColumn_eq_ok hw
      obtain ⟨old, hmem, heq⟩ := List.mem_map.1 hcolumn
      split at heq
      · exact heq ▸ .inl horderly
      · exact absurd (heq ▸ hmem) hold
    | deleteTable table =>
      cases hw
      exact absurd (List.mem_filter.1 hcolumn).1 hold
    | deleteColumn id =>
      cases hw
      exact absurd (List.mem_filter.1 hcolumn).1 hold
    | insertTable name physicalId =>
      cases hw
      exact absurd hcolumn hold
    | renameTable table name =>
      obtain ⟨_, rfl⟩ := of_changeTable_eq_ok hw
      exact absurd hcolumn hold
    | updatePhysicalId table physicalId =>
      obtain ⟨_, rfl⟩ := of_changeTable_eq_ok hw
      exact absurd hcolumn hold
    | saveLayout table columnIds displayOrder =>
      obtain ⟨_, rfl⟩ := of_changeTable_eq_ok hw
      exact absurd hcolumn hold
    | setLabelColumn table label =>
      obtain ⟨_, rfl⟩ := of_changeTable_eq_ok hw
      exact absurd hcolumn hold

theorem givenBy_apply (store : ShadowStore) (w : Write) : GivenBy store (store.apply w) :=
  GivenBy.applyAll ⟨Int.le_refl _, Int.le_refl _⟩ [w]

/-- The layout that an orderly change saves is made from the order of the row. -/
theorem layout_of_mem_apply (horderly : store.Orderly policy w) {row : TrackedTable}
    (h : row ∈ (store.apply w).tables) :
    (∃ old ∈ store.tables, old.tableId = row.tableId ∧
      (row.displayOrder = old.displayOrder ∨
        ∃ columnIds, row.displayOrder = policy old.displayOrder columnIds ∧
          ∀ id, id ∈ columnIds ↔ store.HasColumnOf row.tableId id)) ∨
    store.lastTableId < row.tableId ∧ row.displayOrder = [] := by
  refine (row_of_mem_apply h).imp_left ?_
  rintro ⟨old, hold, hid, hsame | ⟨columnIds, rfl⟩⟩
  · exact ⟨old, hold, hid, .inl hsame⟩
  · exact ⟨old, hold, hid, .inr ⟨columnIds, horderly.2 old hold hid, horderly.1⟩⟩

theorem Listing.empty : Listing {} where
  toWellKeyed := .empty
  nodup := by simp
  given := by simp

/-- An orderly change keeps to ids that were given. -/
theorem Listing.apply (h : store.Listing) (hpolicy : policy.ListsEach)
    (horderly : store.Orderly policy w) : (store.apply w).Listing := by
  refine ⟨h.toWellKeyed.apply w, fun row hrow => ?_, fun row hrow id hid => ?_⟩
  · rcases layout_of_mem_apply horderly hrow with
      ⟨old, hold, _, hsame | ⟨columnIds, hsame, _⟩⟩ | ⟨_, hempty⟩
    · exact hsame ▸ h.nodup old hold
    · exact hsame ▸ (hpolicy old.displayOrder columnIds).nodup_iff.2 columnIds.nodup_toList
    · exact hempty ▸ .nil
  · refine Int.le_trans ?_ (givenBy_apply store w).2
    rcases layout_of_mem_apply horderly hrow with
      ⟨old, hold, _, hsame | ⟨columnIds, hsame, hcolumns⟩⟩ | ⟨_, hempty⟩
    · exact h.given old hold id (hsame ▸ hid)
    · rw [hsame, (hpolicy old.displayOrder columnIds).mem_iff, IdSet.mem_toList, hcolumns] at hid
      obtain ⟨column, hcolumn, _, rfl⟩ := hid
      exact h.columns_le column hcolumn
    · rw [hempty] at hid
      exact absurd hid List.not_mem_nil

/-- After an orderly change, what was tracked goes on. -/
theorem continues_apply (h : store.Listing) (horderly : store.Orderly DisplayOrder.merge w) :
    Continues store (store.apply w) := by
  have hcolumns : ∀ table id, (store.apply w).HasColumnOf table id → id ≤ store.lastColumnId →
      store.HasColumnOf table id := by
    rintro table id ⟨column, hcolumn, rfl, rfl⟩ hle
    exact (column_of_mem_apply horderly hcolumn).resolve_right (Int.not_lt.2 hle)
  -- A row that was there before has its order, or one that was merged for its columns.
  have hrow : ∀ old ∈ store.tables, ∀ row ∈ (store.apply w).tables, row.tableId = old.tableId →
      row.displayOrder = old.displayOrder ∨
        ∃ columnIds, row.displayOrder = DisplayOrder.merge old.displayOrder columnIds ∧
          ∀ id, id ∈ columnIds ↔ store.HasColumnOf row.tableId id := by
    intro old hold row hrow hid
    rcases layout_of_mem_apply horderly hrow with ⟨other, hother, hsame, hcases⟩ | ⟨hnew, _⟩
    · rwa [h.table_eq hother hold (hsame.trans hid)] at hcases
    · exact absurd (hid ▸ h.tables_le old hold) (Int.not_le.2 hnew)
  have hmerged (order : List ColumnId) (columnIds : IdSet) (id : ColumnId) :
      id ∈ DisplayOrder.merge order columnIds ↔ id ∈ columnIds := by
    rw [(DisplayOrder.merge_listsEach order columnIds).mem_iff, IdSet.mem_toList]
  refine ⟨givenBy_apply store w, fun row hmem hle => ?_, hcolumns,
    fun table id hlists hle => ?_, fun old hold row hmem hid id hlisted hleft hcolumn => ?_,
    fun old hold row hmem hid => ?_⟩
  · rcases row_of_mem_apply hmem with ⟨old, hold, hsame, _⟩ | ⟨hnew, _⟩
    · exact ⟨old, hold, hsame⟩
    · exact absurd hle (Int.not_le.2 hnew)
  · obtain ⟨row, hmem, rfl, hlisted⟩ := hlists
    rcases layout_of_mem_apply horderly hmem with
      ⟨old, hold, hid, hsame | ⟨columnIds, hsame, hids⟩⟩ | ⟨_, hempty⟩
    · exact .inl ⟨old, hold, hid, hsame ▸ hlisted⟩
    · rw [hsame, hmerged, hids] at hlisted
      exact .inr hlisted
    · rw [hempty] at hlisted
      exact absurd hlisted List.not_mem_nil
  · rcases hrow old hold row hmem hid with hsame | ⟨columnIds, hsame, hids⟩
    · exact hleft (hsame ▸ hlisted)
    · rw [hsame, hmerged, hids] at hleft
      exact hleft (hcolumns _ _ hcolumn (h.given old hold id hlisted))
  · rcases hrow old hold row hmem hid with hsame | ⟨columnIds, hsame, _⟩
    · exact hsame ▸ .refl _
    · exact hsame ▸ DisplayOrder.merge_extends (h.nodup old hold) columnIds

/-! ## Many changes -/

namespace Continues

/-- No id comes back to an order that it left. -/
theorem not_lists (hfirst : first.Listing) (h : Continues first middle)
    (h' : Continues middle last) (hlisted : first.Lists table id) (hleft : ¬middle.Lists table id) :
    ¬last.Lists table id := by
  rintro ⟨row, hrow, rfl, hid⟩
  obtain ⟨old, hold, htable, hlisted⟩ := hlisted
  have hle := hfirst.given old hold id hlisted
  have htable_le : row.tableId ≤ middle.lastTableId :=
    Int.le_trans (htable ▸ hfirst.tables_le old hold) h.given.1
  -- The table was tracked all the time, and while its order left out the id it had no
  -- column of it.
  obtain ⟨between, hbetween, hsame⟩ := h'.tracked row hrow htable_le
  have hgone : ¬middle.HasColumnOf row.tableId id := hsame ▸
    h.left old hold between hbetween (hsame.trans htable.symm) id hlisted
      fun hmem => hleft ⟨between, hbetween, hsame, hmem⟩
  exact (h'.listed row.tableId id ⟨row, hrow, rfl, hid⟩ (Int.le_trans hle h.given.2)).elim hleft
    hgone

theorem refl (h : store.WellKeyed) : Continues store store where
  given := ⟨Int.le_refl _, Int.le_refl _⟩
  tracked row hrow _ := ⟨row, hrow, rfl⟩
  columns _ _ hcolumn _ := hcolumn
  listed _ _ hlists _ := .inl hlists
  left _ hold _ hrow hid _ hlisted hleft :=
    absurd (h.table_eq hrow hold hid ▸ hlisted) hleft
  order _ hold _ hrow hid := h.table_eq hrow hold hid ▸ .refl _

theorem trans (hfirst : first.Listing) (hmiddle : middle.WellKeyed) (h : Continues first middle)
    (h' : Continues middle last) : Continues first last := by
  -- A table that is tracked at both ends was tracked in between.
  have hbetween : ∀ old ∈ first.tables, ∀ row ∈ last.tables, row.tableId = old.tableId →
      ∃ between ∈ middle.tables, between.tableId = row.tableId := fun old hold row hrow hid =>
    h'.tracked row hrow (hid ▸ Int.le_trans (hfirst.tables_le old hold) h.given.1)
  refine ⟨⟨Int.le_trans h.given.1 h'.given.1, Int.le_trans h.given.2 h'.given.2⟩,
    fun row hrow hle => ?_, fun table id hcolumn hle => ?_, fun table id hlists hle => ?_,
    fun old hold row hrow hid id hlisted hleft hcolumn => ?_, fun old hold row hrow hid => ?_⟩
  · obtain ⟨between, hmem, hsame⟩ := h'.tracked row hrow (Int.le_trans hle h.given.1)
    obtain ⟨old, hold, hid⟩ := h.tracked between hmem (hsame ▸ hle)
    exact ⟨old, hold, hid.trans hsame⟩
  · exact h.columns table id (h'.columns table id hcolumn (Int.le_trans hle h.given.2)) hle
  · rcases h'.listed table id hlists (Int.le_trans hle h.given.2) with hlists | hcolumn
    · exact h.listed table id hlists hle
    · exact .inr (h.columns table id hcolumn hle)
  · obtain ⟨between, hmem, hsame⟩ := hbetween old hold row hrow hid
    by_cases hkept : id ∈ between.displayOrder
    · exact h'.left between hmem row hrow hsame.symm id hkept hleft hcolumn
    · have hle := Int.le_trans (hfirst.given old hold id hlisted) h.given.2
      exact h.left old hold between hmem (hsame.trans hid) id hlisted hkept
        (hsame ▸ h'.columns _ _ hcolumn hle)
  · obtain ⟨between, hmem, hsame⟩ := hbetween old hold row hrow hid
    refine (h.order old hold between hmem (hsame.trans hid)).trans
      (h'.order between hmem row hrow hsame.symm) fun id hlisted hlast => ?_
    by_contra hnot
    refine not_lists hfirst h h' ⟨old, hold, hid.symm, hlisted⟩ ?_ ⟨row, hrow, rfl, hlast⟩
    rintro ⟨other, hother, heq, hmem'⟩
    exact hnot (hmiddle.table_eq hother hmem (heq.trans hsame.symm) ▸ hmem')

end Continues

/-- After orderly changes, what was tracked goes on. -/
theorem continues_applyAll (h : store.Listing) {ws : List Write}
    (horderly : store.Each (Orderly DisplayOrder.merge) ws) :
    Continues store (store.applyAll ws) := by
  induction ws generalizing store with
  | nil => exact .refl h.toWellKeyed
  | cons w ws ih =>
    have hnext := h.apply DisplayOrder.merge_listsEach horderly.1
    exact (continues_apply h horderly.1).trans h hnext.toWellKeyed (ih hnext horderly.2)

theorem Listing.applyAll (h : store.Listing) (hpolicy : policy.ListsEach) {ws : List Write}
    (horderly : store.Each (Orderly policy) ws) : (store.applyAll ws).Listing := by
  induction ws generalizing store with
  | nil => exact h
  | cons w ws ih => exact ih (h.apply hpolicy horderly.1) horderly.2

end ShadowCatalog.ShadowStore
