import ShadowCatalog.Proofs.Reconcile.Columns

/-!
# Columns in place

The rows of a table are *in place* if there is one at each position of a live column, and
none elsewhere (`Columns.InPlace`). Reconciling them then makes no row and forgets none: each
row stays in its place, under its id, whatever becomes of its name and type
(`InPlace.updates`, `InPlace.places_rowsAfter`). So the set of columns stays the same, and
with it the layout, if it was made for these columns (`InPlace.layoutWrites_eq_nil`).
-/

namespace ShadowCatalog

/-- The id of a column, and where it is. -/
def TrackedColumn.place (column : TrackedColumn) : ColumnId × Position :=
  (column.columnId, column.position)

namespace Columns

/-- There is one row at the position of each live column, and none elsewhere. -/
structure InPlace (lives : List LiveColumn) (rows : List TrackedColumn) : Prop where
  distinct : rows.Pairwise (·.position ≠ ·.position)
  positions : (rows.map (·.position)).Perm (lives.map (·.position))

namespace InPlace

variable {live : LiveColumn} {lives : List LiveColumn} {rows rows' : List TrackedColumn}
  {table : TableId}

theorem of_perm (h : InPlace lives rows) (hrows : rows.Perm rows') : InPlace lives rows' :=
  ⟨hrows.pairwise h.distinct fun hne => hne.symm, (hrows.map _).symm.trans h.positions⟩

/-- The first live column has its row, and the other rows are in place for the others. -/
theorem cons (h : InPlace (live :: lives) rows) :
    ∃ row, rows.find? (·.position = live.position) = some row ∧ row.position = live.position ∧
      rows.Perm (row :: rows.filter (·.position ≠ live.position)) ∧
      InPlace lives (rows.filter (·.position ≠ live.position)) := by
  cases hfind : rows.find? (·.position = live.position) with
  | none =>
    obtain ⟨row, hrow, hat⟩ := List.mem_map.1 (h.positions.symm.subset List.mem_cons_self)
    exact absurd hat (by simpa using List.find?_eq_none.1 hfind row hrow)
  | some row =>
    obtain ⟨hat, hperm⟩ := perm_cons_filter h.distinct hfind
    refine ⟨row, rfl, hat, hperm, h.distinct.filter _, ?_⟩
    have hpositions := (hperm.map (·.position)).symm.trans h.positions
    rw [List.map_cons, hat] at hpositions
    exact hpositions.cons_inv

/-- Each live column is matched with the row at its position. -/
theorem matched_of_mem (h : InPlace lives rows) :
    ∀ step ∈ matchUp rows lives,
      ∃ row ∈ rows, ∃ live, row.position = live.position ∧ step = matched row live := by
  induction lives generalizing rows with
  | nil =>
    have hnone : rows = [] := List.map_eq_nil_iff.1 (List.perm_nil.1 h.positions)
    rw [hnone]
    exact fun _ hstep => absurd hstep List.not_mem_nil
  | cons live lives ih =>
    obtain ⟨row, hfind, hat, hperm, hrest⟩ := h.cons
    rw [matchUp, hfind]
    refine List.forall_mem_cons.2
      ⟨⟨row, hperm.symm.subset List.mem_cons_self, live, hat, rfl⟩, fun step hstep => ?_⟩
    obtain ⟨other, hother, hmatched⟩ := ih hrest step hstep
    exact ⟨other, (List.mem_filter.1 hother).1, hmatched⟩

/-- The rows after the steps are in their places, under their ids. -/
theorem places_rowsAfter_of_distinct (h : InPlace lives rows) (table : TableId)
    (last : ColumnId) :
    ((rowsAfter table last rows lives).map (·.place)).Perm (rows.map (·.place)) := by
  induction lives generalizing rows with
  | nil =>
    rw [List.map_eq_nil_iff.1 (List.perm_nil.1 h.positions)]
    exact .nil
  | cons live lives ih =>
    obtain ⟨row, hfind, hat, hperm, hrest⟩ := h.cons
    have hplace : (row.apply live).place = row.place := congrArg (row.columnId, ·) hat.symm
    rw [rowsAfter, hfind, List.map_cons, hplace]
    exact ((ih hrest).cons row.place).trans (hperm.map _).symm

/-- No row repeats the position of another. -/
theorem steps_eq (h : InPlace lives rows) :
    candidates rows = rows.mergeSort comesFirst ∧
      steps rows lives = matchUp (rows.mergeSort comesFirst) lives := by
  have hsorted := (h.of_perm (List.mergeSort_perm rows comesFirst).symm).distinct
  obtain ⟨hfirsts, hrepeats⟩ := firsts_eq_self hsorted fun _ _ => List.not_mem_nil
  refine ⟨hfirsts, ?_⟩
  rw [steps, hfirsts, hrepeats]
  rfl

theorem places_rowsAfter (h : InPlace lives rows) (table : TableId) (last : ColumnId) :
    ((rowsAfter table last (candidates rows) lives).map (·.place)).Perm (rows.map (·.place)) := by
  have hsorted := List.mergeSort_perm rows comesFirst
  rw [h.steps_eq.1]
  exact ((h.of_perm hsorted.symm).places_rowsAfter_of_distinct table last).trans (hsorted.map _)

/-- The ids of the rows that stay are those of the rows. -/
theorem stepIds_perm (h : InPlace lives rows) (last : ColumnId) :
    (stepIds last (steps rows lives)).Perm (rows.map (·.columnId)) := by
  have hids := (h.places_rowsAfter 0 last).map Prod.fst
  rw [List.map_map, List.map_map] at hids
  rw [stepIds_steps 0]
  exact hids

/-- All that is changed is what is recorded of rows, apart from their ids and positions. -/
theorem updates (h : InPlace lives rows) :
    ∀ w ∈ stepWrites table (steps rows lives), ∃ column, w = .updateColumn column ∧
      ∃ row ∈ rows, column.tableId = row.tableId ∧ column.place = row.place := by
  have hsorted := List.mergeSort_perm rows comesFirst
  intro w hw
  rw [h.steps_eq.2] at hw
  obtain ⟨step, hstep, hwrite⟩ := List.mem_filterMap.1 hw
  obtain ⟨row, hrow, live, hat, rfl⟩ := (h.of_perm hsorted.symm).matched_of_mem step hstep
  rw [matched] at hwrite
  split at hwrite
  · cases hwrite
    exact ⟨_, rfl, row, hsorted.subset hrow, rfl, congrArg (row.columnId, ·) hat.symm⟩
  · cases hwrite

/-- A layout that was made for the columns stays as it is. -/
theorem layoutWrites_eq_nil (h : InPlace lives rows) (last : ColumnId) {policy : OrderPolicy}
    {table : TrackedTable} (hids : ∀ id, id ∈ table.columnIds ↔ ∃ row ∈ rows, row.columnId = id)
    (horder : policy table.displayOrder table.columnIds = table.displayOrder) :
    layoutWrites policy table (.ofList (stepIds last (steps rows lives))) = [] := by
  have hsame : IdSet.ofList (stepIds last (steps rows lives)) = table.columnIds := by
    refine IdSet.ext fun id => ?_
    rw [IdSet.mem_ofList, (h.stepIds_perm last).mem_iff, List.mem_map, hids]
  rw [layoutWrites, hsame, horder]
  exact if_neg fun hnew => hnew.elim (absurd rfl) (absurd rfl)

/-- When the columns are reconciled, the table has the layout for the columns it had. -/
theorem row_eq_of_mem {store : ShadowStore} {policy : OrderPolicy} {table row : TrackedTable}
    (h : InPlace lives (store.columnsOf table.tableId)) (hkeyed : store.WellKeyed)
    (htable : table ∈ store.tables)
    (hrow : row ∈ (store.applyAll (plan policy lives table store)).tables)
    (hid : row.tableId = table.tableId) :
    row = laidOut policy (.ofList ((store.columnsOf table.tableId).map (·.columnId))) table := by
  obtain ⟨columnIds, htables, hids⟩ := (reconciled_applyAll_plan hkeyed policy lives htable).tables
  have hafter := (columnsOf_applyAll_plan hkeyed policy lives htable).1.map (·.place)
  have hcolumns := (hafter.trans (h.places_rowsAfter _ _)).map Prod.fst
  rw [List.map_map, List.map_map] at hcolumns
  have hsame : columnIds = .ofList ((store.columnsOf table.tableId).map (·.columnId)) := by
    refine IdSet.ext fun id => ?_
    rw [hids, IdSet.mem_ofList, ← List.mem_map]
    exact hcolumns.mem_iff
  rw [htables, ShadowStore.mem_changeRow] at hrow
  obtain ⟨-, hne⟩ | ⟨-, -, -, rfl⟩ := hrow
  · exact absurd hid hne
  · rw [hsame]

end InPlace

end Columns

end ShadowCatalog
