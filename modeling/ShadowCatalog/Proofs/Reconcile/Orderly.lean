import Mathlib.Data.List.Nodup
import Mathlib.Tactic.Common
import ShadowCatalog.Proofs.Memory.Continuity
import ShadowCatalog.Proofs.Reconcile.Pass

/-!
# The changes of a pass are orderly

Each change of a pass is orderly when it is made, wherever the pass ends
(`orderly_changes_syncPass`). This is a matter of the plans for the columns. A row that is
updated is one of the table, and the layout that is saved at the end is that of the rows
which are there by then, in an order made from that of the table (`Columns.orderly_plan`).

The table is planned for as it was listed when the pass began to reconcile columns. That is
still how it is stored when its turn comes, since nothing that is done for one table touches
another, whichever calls fail in it (`each_changes_reconcileEach`).
-/

namespace ShadowCatalog

variable {σ : Type} {responder : Responder σ} {state : σ} {policy : OrderPolicy}
  {store : ShadowStore}

/-! ## Plans -/

theorem ShadowStore.hasColumnOf_iff {table : TableId} {id : ColumnId} :
    store.HasColumnOf table id ↔ ∃ column ∈ store.columnsOf table, column.columnId = id := by
  simp only [HasColumnOf, mem_columnsOf, and_assoc]

/-- A change of the registry is no layout, and updates no column. -/
theorem ShadowStore.orderly_of_ofRegistry {w : Write} (h : w.ofRegistry = true) :
    store.Orderly policy w := by
  cases w with
  | saveLayout table columnIds displayOrder => cases h
  | updateColumn column => cases h
  | _ => exact trivial

namespace Columns

variable {table : TableId} {rows done : List TrackedColumn}

theorem orderly_deletes (rows : List TrackedColumn) :
    store.Each (ShadowStore.Orderly policy)
      (stepWrites table (rows.map fun row => .delete row.columnId)) := by
  refine ShadowStore.each_of_forall fun w hw store => ?_
  obtain ⟨step, hstep, hsome⟩ := List.mem_filterMap.1 hw
  obtain ⟨row, _, rfl⟩ := List.mem_map.1 hstep
  cases hsome
  exact trivial

/-- A row that is matched with a live column is one of the table. -/
theorem orderly_matchUp (lives : List LiveColumn) (h : Midway store table rows done)
    (hpositions : rows.Pairwise (·.position ≠ ·.position)) :
    store.Each (ShadowStore.Orderly policy) (stepWrites table (matchUp rows lives)) := by
  induction lives generalizing store rows done with
  | nil => exact orderly_deletes rows
  | cons live lives ih =>
    rw [matchUp]
    cases hfind : rows.find? (·.position = live.position) with
    | none => exact ⟨trivial, ih (h.insert live).2 hpositions⟩
    | some row =>
      have hat := h.of_perm (perm_cons_filter hpositions hfind).2
      have hpositions' := hpositions.filter (·.position ≠ live.position)
      dsimp only
      rw [matched]
      split
      · refine ⟨⟨row, ?_, rfl, rfl⟩, ih (hat.update live).2 hpositions'⟩
        exact (ShadowStore.mem_columnsOf.1 hat.mem_columnsOf).1
      · exact ih hat.keep hpositions'

theorem orderly_steps (h : store.WellKeyed) (htable : store.hasTable table = true)
    (lives : List LiveColumn) :
    store.Each (ShadowStore.Orderly policy)
      (stepWrites table (steps (store.columnsOf table) lives)) := by
  rw [steps, stepWrites_append]
  exact ShadowStore.each_append.2 ⟨orderly_deletes _,
    orderly_matchUp lives (midway_candidates h htable).2 (firsts_pairwise [] _)⟩

/-- The changes that reconcile the columns of a table are orderly, one after the other. -/
theorem orderly_plan (h : store.WellKeyed) (lives : List LiveColumn) {table : TrackedTable}
    (htable : table ∈ store.tables) :
    store.Each (ShadowStore.Orderly policy) (plan policy lives table store) := by
  have hhas := ShadowStore.hasTable_iff.2 ⟨table, htable, rfl⟩
  have hleaves := leaves_steps h hhas lives
  refine ShadowStore.each_append.2 ⟨orderly_steps h hhas lives, ?_⟩
  unfold layoutWrites
  dsimp only
  split
  · refine ⟨⟨fun id => ?_, fun row hrow hid => ?_⟩, trivial⟩
    · rw [IdSet.mem_ofList, stepIds_steps table.tableId, List.mem_map,
        ShadowStore.hasColumnOf_iff]
      exact exists_congr fun row => and_congr_left fun _ => hleaves.perm.mem_iff.symm
    · rw [hleaves.only.tables] at hrow
      rw [h.table_eq hrow htable hid]
  · exact trivial

end Columns

/-! ## The pass -/

section

variable {p : ShadowStore → Write → Prop} {tables : List TrackedTable} {report : SyncReport}
  (hplan : ∀ store : ShadowStore, store.WellKeyed → ∀ table ∈ store.tables, ∀ lives,
    store.Each p (Columns.plan policy lives table store))
include hplan

/-- What the plans for columns have of their changes, all changes have while tables are
    reconciled: each is planned for as it is then. -/
theorem each_changes_reconcileEach (b : Backing responder) (h : (b.store state).WellKeyed)
    (htables : ∀ table ∈ tables, table ∈ (b.store state).tables)
    (hids : tables.Pairwise (·.tableId ≠ ·.tableId)) (report : SyncReport) :
    (b.store state).Each p
      (((reconcileEach policy tables).course responder report state).filterMap
        (·.change? responder)) := by
  induction tables generalizing state report with
  | nil => exact trivial
  | cons table tables ih =>
    rw [List.forall_mem_cons] at htables
    rw [List.pairwise_cons] at hids
    obtain ⟨hfew, hstore⟩ := changes_reconcileOrSkip (Columns.follows_reconcile h policy
      (ShadowStore.hasTable_iff.2 ⟨table, htables.1, rfl⟩)) report
    rw [(reconcileEach_cons policy responder table tables report state).2, List.filterMap_append]
    have hfirst := hplan _ h table htables.1 ((b.live state).columns table.name)
    obtain ⟨rest, heq⟩ := hfew
    rw [← heq] at hfirst
    refine ShadowStore.each_append.2 ⟨(ShadowStore.each_append.1 hfirst).1, ?_⟩
    rw [← hstore]
    refine ih (hstore ▸ h.applyAll _) (fun other hother => ?_) hids.2 _
    -- The other tables are stored as they were.
    rw [hstore]
    exact ((Columns.alike_applyAll_of_isPrefix h htables.1 ⟨rest, heq⟩
      (hids.1 other hother).symm).row other rfl).2 (htables.2 other hother)

/-- What the changes of the registry have, and those of the plans for columns, all changes
    of a pass have, wherever it ends. -/
theorem each_changes_syncPass (hregistry : ∀ store w, w.ofRegistry = true → p store w)
    (b : Backing responder) (h : (b.store state).WellKeyed) :
    (b.store state).Each p ((syncPass policy).changes responder state) := by
  have hopening : (b.store state).Each p
      ((opening.course responder {} state).filterMap (·.change? responder)) := by
    refine ShadowStore.each_of_forall fun w hw store => hregistry store w ?_
    exact Registry.ofRegistry_of_mem_plan w (((follows_opening h).changes_isPrefix {}).subset hw)
  rcases hrun : opening.perform responder {} state with ⟨⟨error | tables, report⟩, middle⟩
  · rw [CatalogTask.changes, (syncPass_of_opening_error policy hrun).2]
    exact hopening
  · obtain ⟨rfl, _, hpassage⟩ := (follows_opening h).of_ok hrun
    have hmiddle : (b.store middle).WellKeyed := hpassage.store_eq ▸ h.applyAll _
    rw [CatalogTask.changes, (syncPass_of_opening_ok policy hrun).2, List.filterMap_append]
    refine ShadowStore.each_append.2 ⟨hopening, ?_⟩
    rw [hpassage.changes_eq, ← hpassage.store_eq]
    exact each_changes_reconcileEach hplan b hmiddle (fun _ htable => htable)
      (hmiddle.tables.imp Int.ne_of_lt) report

end

/-- Each change of a pass is orderly when it is made, wherever the pass ends. -/
theorem orderly_changes_syncPass (b : Backing responder) (h : (b.store state).WellKeyed) :
    (b.store state).Each (ShadowStore.Orderly policy)
      ((syncPass policy).changes responder state) :=
  each_changes_syncPass (fun _ hkeyed _ htable lives => Columns.orderly_plan hkeyed lives htable)
    (fun _ _ => ShadowStore.orderly_of_ofRegistry) b h

end ShadowCatalog
