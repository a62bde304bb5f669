import ShadowCatalog.Proofs.Browse.Planner
import ShadowCatalog.Proofs.Memory.World
import ShadowCatalog.Proofs.Reconcile.InPlace
import ShadowCatalog.Proofs.Reconcile.Presentation

/-!
# The order that is shown, and the order that is saved

The stored display order of a table may lag behind its columns: a pass that was cut short
leaves it so, or a pass that failed before the layout was saved. What is shown does not wait
for the next pass. The planner puts the columns that are stored in an order of its own making,
by the policy; and this is the order that a pass will save, if the columns are still where the
rows say (`orderedColumns_agrees`).

The two are made from different lists, one from the rows as they are stored, the other from
the ids that are left when the rows have been reconciled. That they come to the same is due to
the rows being in place (`Columns.InPlace`), and to the opening and the other visits of the
pass, which leave the old order as it is (`ShadowStore.Carries`).
-/

namespace ShadowCatalog

variable {σ : Type} {responder : Responder σ} {state : σ} {policy : OrderPolicy}
  {row : TrackedTable}

/-- Whatever order is stored, each column is shown once, in the order that the policy makes
    for the columns there are. -/
theorem ShadowStore.ordered_spec {store : ShadowStore} (hkeyed : store.WellKeyed)
    (hpolicy : policy.ListsEach) (row : TrackedTable) :
    (store.ordered policy row).map (·.columnId) = policy row.displayOrder
        (.ofList ((store.columnsOf row.tableId).map (·.columnId))) ∧
      (store.ordered policy row).Perm (store.columnsOf row.tableId) := by
  have hnodup := hkeyed.columnsOf_nodup row.tableId
  exact takeColumns_perm hnodup ((hpolicy _ _).trans (IdSet.toList_ofList_perm hnodup))

/-- Unless a call fails, the columns are shown as they are stored. -/
theorem orderedColumns_of_unfailing (b : Backing responder)
    (h : Unfailing responder ((orderedColumns policy row).course responder state)) :
    ((orderedColumns policy row).perform responder state).1 =
      .ok ((b.store state).ordered policy row) := by
  have hanswer : (b.live state).respond (.trackedColumns row.tableId) (b.store state) =
    (.ok ((b.store state).columnsOf row.tableId), b.store state) := rfl
  obtain ⟨columns, hreply⟩ := h ⟨.trackedColumns row.tableId, state⟩ List.mem_cons_self
  rw [orderedColumns, CatalogTask.perform_bind, CatalogTask.perform_ask]
  rcases b.reply_or_struck hanswer with ⟨hlisted, -⟩ | ⟨error, ⟨herror, -⟩, -⟩
  · rcases hcall : responder (.trackedColumns row.tableId) state with ⟨reply, later⟩
    rw [hcall] at hlisted
    rw [show reply = _ from hlisted]
    rfl
  · exact absurd (hreply.symm.trans herror) (by simp)

/-- In the visit to a table, no call of which fails, the order that is saved is the one that
    was shown before the pass, if the rows of the table are in place. -/
theorem Visit.Stands.displayOrder_eq {b : Backing responder} {visit : Visit σ}
    {first last : ShadowStore} (h : visit.Stands b policy first last)
    (hpolicy : policy.ListsEach) {store : ShadowStore} (hkeyed : store.WellKeyed)
    (hcarries : store.Carries visit.table.tableId first)
    (hrow : row ∈ store.tables) (hid : visit.table.tableId = row.tableId)
    (hfailure : visit.failure? policy responder = none)
    (hplace : Columns.InPlace ((b.live visit.before).columns visit.table.name)
      (store.columnsOf row.tableId)) {kept : TrackedTable} (hkept : kept ∈ last.tables)
    (hkeptId : kept.tableId = row.tableId) :
    kept.displayOrder = (store.ordered policy row).map (·.columnId) := by
  -- When the visit begins, the table has the layout and the columns that it had.
  have htracked : visit.table ∈ first.tables := (h.before.row visit.table rfl).1 h.tracked
  obtain ⟨old, hold, holdId, hlayout⟩ := hcarries.row visit.table htracked rfl
  obtain rfl : old = row := hkeyed.table_eq hold hrow (holdId.trans hid)
  have hcolumns : (b.store visit.before).columnsOf visit.table.tableId =
      store.columnsOf old.tableId := by
    rw [h.before.columns, hcarries.columns visit.table htracked rfl, hid]
  -- When it ends, the table has the layout for these columns.
  have hhas := ShadowStore.hasTable_iff.2 ⟨visit.table, h.tracked, rfl⟩
  rw [← hcolumns] at hplace
  have hlaid := (h.after.row kept (hkeptId.trans hid.symm)).1 hkept
  rw [visit.store_left b policy h.keyed hhas hfailure] at hlaid
  rw [hplace.row_eq_of_mem h.keyed h.tracked hlaid (hkeptId.trans hid.symm),
    (ShadowStore.ordered_spec hkeyed hpolicy old).1, Columns.laidOut, hcolumns]
  exact congrArg (policy · _) (congrArg Prod.snd hlayout)

/-- Whatever order is stored for a table, each of its columns is shown once. A pass by the same
    policy, in which the table stays tracked and no call for it fails, saves the order in which
    they are shown, if the live columns are found at the positions of the rows. -/
theorem orderedColumns_agrees (b : Backing responder) (hpolicy : policy.ListsEach)
    (hkeyed : (b.store state).WellKeyed) (row : TrackedTable) :
    ∃ columns : List TrackedColumn,
      columns.Perm ((b.store state).columnsOf row.tableId) ∧
      (Unfailing responder ((orderedColumns policy row).course responder state) →
        ((orderedColumns policy row).perform responder state).1 = .ok columns) ∧
      (row ∈ (b.store state).tables → ∀ report later,
        (syncPass policy).perform responder state = (.ok report, later) →
        ∀ kept ∈ (b.store later).tables, kept.tableId = row.tableId →
          ∃ visit ∈ passVisits policy responder state, visit.table.tableId = row.tableId ∧
            (∀ skipped, visit.skipped? policy responder = some skipped →
              skipped ∈ report.tablesSkipped) ∧
            (visit.skipped? policy responder = none →
              Columns.InPlace ((b.live visit.before).columns visit.table.name)
                ((b.store state).columnsOf row.tableId) →
              kept.displayOrder = columns.map (·.columnId))) := by
  refine ⟨(b.store state).ordered policy row,
    (ShadowStore.ordered_spec hkeyed hpolicy row).2, orderedColumns_of_unfailing b, ?_⟩
  intro hrow report later hsync kept hkept hkeptId
  obtain ⟨first, hcarries, hreported, hvisited⟩ := visited_of_ok hkeyed hsync
  obtain ⟨visit, hvisit, hid, hstands⟩ := hvisited kept hkept
  rw [hkeptId] at hid
  refine ⟨visit, hvisit, hid, fun skipped hskipped => ?_, fun hskipped hplace => ?_⟩
  · rw [hreported]
    exact List.mem_filterMap.2 ⟨visit, hvisit, hskipped⟩
  · exact hstands.displayOrder_eq hpolicy hkeyed
      (hcarries _ (hid ▸ hkeyed.tables_le row hrow)) hrow hid (Option.map_eq_none_iff.1 hskipped)
      hplace hkept hkeptId

/-- Items that are called goods by now, with columns of other names and types. The stored order
    lists one of them twice and one that is gone, and leaves one out. -/
def lagging : World where
  live.entries := [⟨⟨4, "goods"⟩, [⟨1, "id", "integer", false, none, true, none⟩,
    ⟨2, "title", "text", true, none, false, none⟩, ⟨5, "price", "money", true, none, false, none⟩]⟩]
  store := ShadowStore.applyAll {} [
    .insertTable "items" 4,
    .insertColumn 1 ⟨5, "price", "integer", true, none, false, none⟩,
    .insertColumn 1 ⟨1, "id", "integer", false, none, true, none⟩,
    .insertColumn 1 ⟨2, "name", "text", true, none, false, none⟩,
    .saveLayout 1 (.ofList [3, 8]) [3, 8, 3, 1]]

/-- What a pass makes of it. -/
def caughtUp : ShadowStore where
  tables := [⟨1, "goods", 4, .ofList [1, 2, 3], [3, 1, 2], none⟩]
  columns := [⟨1, 1, 5, "price", "money"⟩, ⟨2, 1, 1, "id", "integer"⟩, ⟨3, 1, 2, "title", "text"⟩]
  lastTableId := 1
  lastColumnId := 3
  writes := 9

theorem orderedColumns_agrees_lagging :
    let row : TrackedTable := ⟨1, "items", 4, .ofList [3, 8], [3, 8, 3, 1], none⟩
    ∃ columns : List TrackedColumn,
      ((orderedColumns DisplayOrder.merge row).perform lagging.view.respond lagging.store).1 =
        .ok columns ∧
      columns.map (·.name) = ["name", "price", "id"] ∧
      (syncPass DisplayOrder.merge).perform lagging.view.respond lagging.store =
        (.ok ⟨1, 0, 0, 0, 0, 2, 0, 1, []⟩, caughtUp) ∧
      ∀ kept ∈ caughtUp.tables, kept.displayOrder = columns.map (·.columnId) := by
  intro row
  have hkeyed : (lagging.view.backing.store lagging.store).WellKeyed :=
    (ShadowStore.Reachable.empty.applyAll _).wellKeyed
  have hsync : (syncPass DisplayOrder.merge).perform lagging.view.respond lagging.store =
      (.ok ⟨1, 0, 0, 0, 0, 2, 0, 1, []⟩, caughtUp) := by
    cbv
  have hvisited : (passVisits DisplayOrder.merge lagging.view.respond lagging.store).map
      (·.table.name) = ["goods"] := by
    cbv
  have hplace : Columns.InPlace (lagging.view.columns "goods") (lagging.store.columnsOf 1) :=
    ⟨by decide, of_decide_eq_true (by cbv)⟩
  obtain ⟨columns, -, hshown, hsaved⟩ := orderedColumns_agrees lagging.view.backing
    DisplayOrder.merge_listsEach hkeyed row
  have hcolumns := hshown (unfailing_of_all (by decide +kernel))
  have hnames : ((orderedColumns DisplayOrder.merge row).perform lagging.view.respond
      lagging.store).1.map (·.map (·.name)) = .ok ["name", "price", "id"] := by
    decide +kernel
  rw [hcolumns] at hnames
  refine ⟨columns, hcolumns, Except.ok.inj hnames, hsync, fun kept hkept => ?_⟩
  have hid : kept.tableId = 1 := by
    rw [List.mem_singleton.1 hkept]
  obtain ⟨visit, hvisit, -, hreported, hagrees⟩ :=
    hsaved (by decide) _ _ hsync kept hkept hid
  -- No table was left out, so that this one was not.
  have hskipped : visit.skipped? DisplayOrder.merge lagging.view.respond = none :=
    Option.eq_none_iff_forall_ne_some.2 fun skipped hsome =>
      List.not_mem_nil (hreported skipped hsome)
  have hname : visit.table.name = "goods" := by
    have hmem := List.mem_map_of_mem (f := fun v => v.table.name) hvisit
    rw [hvisited] at hmem
    exact List.mem_singleton.1 hmem
  refine hagrees hskipped ?_
  rw [hname]
  exact hplace

end ShadowCatalog
