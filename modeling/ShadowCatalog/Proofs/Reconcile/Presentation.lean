import ShadowCatalog.Proofs.Memory.Departure
import ShadowCatalog.Proofs.Reconcile.Isolation

/-!
# What leaves a table alone

A change *spares* a table if it is neither one of its layout nor of a column
(`Write.Spares`). The table may be renamed then, or forgotten, or another one made, but as
long as it is tracked its layout and its columns are *carried* over
(`ShadowStore.Carries`).

So it is throughout the opening of a pass, and throughout the visits to other tables
(`throughout_opening_carries`, `Columns.carries_applyAll_of_isPrefix`): in a pass, the layout
and the columns of a table are a matter of the visit to it, and of nothing else. A pass that
ends well visited each table that is tracked in the end (`visited_of_ok`), and if it left none
out, the columns of each are settled (`settled_of_clean`).
-/

namespace ShadowCatalog

/-- A change that is neither one of the layout of a table nor of a column. -/
def Write.Spares (table : TableId) : Write → Prop
  | .saveLayout other .. => other ≠ table
  | .insertColumn .. => False
  | .updateColumn _ => False
  | .deleteColumn _ => False
  | _ => True

theorem Write.spares_of_ofRegistry {w : Write} (h : w.ofRegistry = true) (table : TableId) :
    w.Spares table := by
  cases w with
  | saveLayout | insertColumn | updateColumn | deleteColumn => cases h
  | _ => exact trivial

namespace ShadowStore

/-- As long as a table is tracked, it has the layout and the columns that it had. -/
structure Carries (table : TableId) (before after : ShadowStore) : Prop where
  given : before.lastTableId ≤ after.lastTableId
  row : ∀ row ∈ after.tables, row.tableId = table →
    ∃ old ∈ before.tables, old.tableId = table ∧ row.layout = old.layout
  columns : ∀ row ∈ after.tables, row.tableId = table →
    after.columnsOf table = before.columnsOf table

variable {store middle later : ShadowStore} {table : TableId} {w : Write}

namespace Carries

theorem refl (table : TableId) (store : ShadowStore) : Carries table store store :=
  ⟨Int.le_refl _, fun row hrow hid => ⟨row, hrow, hid, rfl⟩, fun _ _ _ => rfl⟩

theorem trans (h : Carries table store middle) (h' : Carries table middle later) :
    Carries table store later := by
  refine ⟨Int.le_trans h.given h'.given, fun row hrow hid => ?_, fun row hrow hid => ?_⟩
  · obtain ⟨old, hold, hid', hlayout⟩ := h'.row row hrow hid
    obtain ⟨first, hfirst, hid'', hlayout'⟩ := h.row old hold hid'
    exact ⟨first, hfirst, hid'', hlayout.trans hlayout'⟩
  · obtain ⟨old, hold, hid', -⟩ := h'.row row hrow hid
    exact (h'.columns row hrow hid).trans (h.columns old hold hid')

/-- What leaves the row and the columns of a table as they are carries them over. -/
theorem of_alike (h : Alike table store later) (hgiven : GivenBy store later) :
    Carries table store later :=
  ⟨hgiven.1, fun row hrow hid => ⟨row, (h.row row hid).1 hrow, hid, rfl⟩,
    fun _ _ _ => h.columns⟩

end Carries

/-- Where one row is changed, but not the layout of the table, the table is carried over. -/
theorem carries_changeRow {other : TableId} {change : TrackedTable → TrackedTable}
    (hid : ∀ row, (change row).tableId = row.tableId)
    (hlayout : other = table → ∀ row, (change row).layout = row.layout) (writes : Nat) :
    Carries table store { store with tables := changeRow other change store.tables, writes } := by
  refine ⟨Int.le_refl _, fun row hrow htable => ?_, fun _ _ _ => rfl⟩
  rcases mem_changeRow.1 hrow with ⟨hold, -⟩ | ⟨old, hold, hother, rfl⟩
  · exact ⟨row, hold, htable, rfl⟩
  · rw [hid] at htable
    exact ⟨old, hold, htable, hlayout (hother.symm.trans htable) old⟩

/-- A change that spares a table carries it over. -/
theorem carries_apply (hspares : w.Spares table) (hgiven : table ≤ store.lastTableId) :
    Carries table store (store.apply w) := by
  cases hw : store.write w with
  | error cause =>
    rw [apply, hw]
    exact .refl table store
  | ok answer =>
    obtain ⟨reply, later⟩ := answer
    rw [apply_of_write hw]
    cases w with
    | insertTable name physicalId =>
      cases hw
      refine ⟨Int.le_add_one (Int.le_refl _), fun row hrow htable => ?_, fun _ _ _ => rfl⟩
      rcases List.mem_append.1 hrow with hrow | hrow
      · exact ⟨row, hrow, htable, rfl⟩
      -- The table that is made has an id that was not given yet.
      · rw [List.mem_singleton.1 hrow] at htable
        exact absurd (htable ▸ hgiven) (Int.not_le.2 (Int.lt_add_one_of_le (Int.le_refl _)))
    | renameTable other name =>
      obtain ⟨_, rfl⟩ := of_changeTable_eq_ok hw
      refine carries_changeRow (fun row => ?_) (fun _ row => ?_) _ <;> rfl
    | updatePhysicalId other physicalId =>
      obtain ⟨_, rfl⟩ := of_changeTable_eq_ok hw
      refine carries_changeRow (fun row => ?_) (fun _ row => ?_) _ <;> rfl
    | deleteTable other =>
      cases hw
      refine ⟨Int.le_refl _, fun row hrow htable => ⟨row, (List.mem_filter.1 hrow).1, htable, rfl⟩,
        fun row hrow htable => ?_⟩
      -- The table is still tracked, so that it is another one that was forgotten.
      have hne : row.tableId ≠ other := by simpa using (List.mem_filter.1 hrow).2
      rw [columnsOf, columnsOf, deleteTable, List.filter_filter]
      refine List.filter_congr fun column _ => ?_
      rw [Bool.and_eq_left_iff_imp]
      intro hcolumn
      rw [decide_eq_true_iff] at hcolumn ⊢
      rw [hcolumn, ← htable]
      exact hne
    | saveLayout other columnIds displayOrder =>
      obtain ⟨_, rfl⟩ := of_changeTable_eq_ok hw
      refine carries_changeRow (fun row => ?_) (fun heq => absurd heq hspares) _
      rfl
    | setLabelColumn other label =>
      obtain ⟨_, rfl⟩ := of_changeTable_eq_ok hw
      refine carries_changeRow (fun row => ?_) (fun _ row => ?_) _ <;> rfl
    | insertColumn other column => exact hspares.elim
    | updateColumn column => exact hspares.elim
    | deleteColumn column => exact hspares.elim

end ShadowStore

/-! ## Passes -/

section

variable {σ : Type} {responder : Responder σ} {state : σ} {policy : OrderPolicy}
  {table : TableId}

/-- Throughout the opening of a pass, the layout and the columns of a table are carried
    over. -/
theorem throughout_opening_carries (b : Backing responder)
    (hgiven : table ≤ (b.store state).lastTableId) (report : SyncReport) :
    opening.Throughout responder (fun s => (b.store state).Carries table (b.store s)) report
      state := by
  refine b.throughout_of_asks (p := (b.store state).Carries table) (asks_opening report) ?_
    (.refl table _)
  intro w hw store hcarries
  exact hcarries.trans (ShadowStore.carries_apply (Write.spares_of_ofRegistry hw table)
    (Int.le_trans hgiven hcarries.given))

/-- However much of the plan for the columns of another table is made, they are, too. -/
theorem Columns.carries_applyAll_of_isPrefix {store : ShadowStore} {lives : List LiveColumn}
    {other : TrackedTable} (h : store.WellKeyed) (hother : other ∈ store.tables) {few : List Write}
    (hfew : few <+: plan policy lives other store) (hne : table ≠ other.tableId) :
    store.Carries table (store.applyAll few) :=
  .of_alike (alike_applyAll_of_isPrefix h hother hfew hne)
    (.applyAll ⟨Int.le_refl _, Int.le_refl _⟩ few)

/-! ## The opening of a pass -/

/-- The opening of a pass goes well: it lists the tables that are then tracked. -/
structure Opens (b : Backing responder) (state middle : σ) (report : SyncReport) : Prop where
  perform_eq :
    opening.perform responder {} state = ((.ok (b.store middle).tables, report), middle)
  due : Due (b.store middle).tables (b.store middle)
  carries : ∀ table, table ≤ (b.store state).lastTableId →
    (b.store state).Carries table (b.store middle)
  skipped : report.tablesSkipped = []

variable {b : Backing responder} {middle later : σ} {report : SyncReport}
  {tables : List TrackedTable}

theorem opens_of_ok (hkeyed : (b.store state).WellKeyed)
    (h : opening.perform responder {} state = ((.ok tables, report), middle)) :
    Opens b state middle report := by
  obtain ⟨htables, hreport, hpassage⟩ := (follows_opening hkeyed).of_ok h
  rw [← hpassage.store_eq] at htables
  have hkeyed' : (b.store middle).WellKeyed := by
    rw [hpassage.store_eq]
    exact hkeyed.applyAll _
  refine ⟨htables ▸ h, ⟨hkeyed', fun _ => id, hkeyed'.tables.imp fun hlt => Int.ne_of_lt hlt⟩,
    fun table hgiven => ?_, ?_⟩
  · have hlast := (throughout_opening_carries b hgiven {}).last
    rw [h] at hlast
    exact hlast
  · rw [hreport]
    exact tablesSkipped_countingAll {} _

namespace Opens

theorem passVisits_eq (h : Opens b state middle report) (policy : OrderPolicy) :
    passVisits policy responder state =
      visits policy responder (b.store middle).tables report middle := by
  rw [passVisits, h.perform_eq]

/-- After its opening, a pass ends well. -/
theorem syncPass_eq (h : Opens b state middle report) (policy : OrderPolicy) :
    let left := (reconcileEach policy (b.store middle).tables).perform responder report middle
    (syncPass policy).perform responder state = (.ok left.1.2, left.2) ∧
      left.1.2.tablesSkipped =
        (passVisits policy responder state).filterMap (·.skipped? policy responder) := by
  obtain ⟨report', later, hleft, -⟩ := reconcileEach_ok policy h.due.ready report
  have hskipped := tablesSkipped_reconcileEach h.due policy report
  rw [h.skipped, List.nil_append, ← h.passVisits_eq] at hskipped
  refine ⟨?_, hskipped⟩
  rw [(syncPass_of_opening_ok policy h.perform_eq).1, hleft]
  rfl

/-- Each visit of the pass stands between the opening and the end of it. -/
theorem stands (h : Opens b state middle report) (policy : OrderPolicy) :
    ∀ visit ∈ passVisits policy responder state, visit.Stands b policy (b.store middle)
      (b.store ((syncPass policy).perform responder state).2) := by
  rw [h.passVisits_eq, (h.syncPass_eq policy).1]
  exact stands_visits h.due policy report

/-- A table that is tracked in the end was visited. -/
theorem exists_visit (h : Opens b state middle report) (policy : OrderPolicy)
    {row : TrackedTable}
    (hrow : row ∈ (b.store ((syncPass policy).perform responder state).2).tables) :
    ∃ visit ∈ passVisits policy responder state, visit.table.tableId = row.tableId := by
  rw [(h.syncPass_eq policy).1] at hrow
  have hidentity := List.mem_map_of_mem (f := TrackedTable.identity) hrow
  rw [map_identity_reconcileEach b policy, ← map_table_visits policy responder
    (b.store middle).tables report middle, ← h.passVisits_eq, List.map_map] at hidentity
  obtain ⟨visit, hvisit, heq⟩ := List.mem_map.1 hidentity
  exact ⟨visit, hvisit, congrArg Prod.fst heq⟩

end Opens

/-- A pass that ends well has left out the tables for which a call failed, and each table that
    is tracked in the end was visited. -/
theorem visited_of_ok (hkeyed : (b.store state).WellKeyed)
    (h : (syncPass policy).perform responder state = (.ok report, later)) :
    ∃ first : ShadowStore,
      (∀ table, table ≤ (b.store state).lastTableId → (b.store state).Carries table first) ∧
      report.tablesSkipped =
        (passVisits policy responder state).filterMap (·.skipped? policy responder) ∧
      ∀ row ∈ (b.store later).tables, ∃ visit ∈ passVisits policy responder state,
        visit.table.tableId = row.tableId ∧ visit.Stands b policy first (b.store later) := by
  rcases hopening : opening.perform responder {} state with ⟨⟨error | tables, opened⟩, middle⟩
  · rw [(syncPass_of_opening_error policy hopening).1] at h
    cases h
  have hopens : Opens b state middle opened := opens_of_ok hkeyed hopening
  have hlater : ((syncPass policy).perform responder state).2 = later := by rw [h]
  obtain ⟨houtcome, hskipped⟩ := hopens.syncPass_eq policy
  rw [h] at houtcome
  rw [← Except.ok.inj (congrArg Prod.fst houtcome)] at hskipped
  refine ⟨b.store middle, hopens.carries, hskipped, fun row hrow => ?_⟩
  obtain ⟨visit, hvisit, hid⟩ := hopens.exists_visit policy (hlater.symm ▸ hrow)
  exact ⟨visit, hvisit, hid, hlater ▸ hopens.stands policy visit hvisit⟩

/-- After a pass that left no table out, the columns of each table are settled, for the live
    columns that its visit found. -/
theorem settled_of_clean (hkeyed : (b.store state).WellKeyed) (hpolicy : policy.Stable)
    (h : (syncPass policy).perform responder state = (.ok report, later))
    (hclean : report.tablesSkipped = []) {row : TrackedTable}
    (hrow : row ∈ (b.store later).tables) :
    ∃ visit ∈ passVisits policy responder state, visit.table.tableId = row.tableId ∧
      Columns.Settled policy ((b.live visit.before).columns visit.table.name) row
        ((b.store later).columnsOf row.tableId) := by
  obtain ⟨first, -, hskipped, hvisited⟩ := visited_of_ok hkeyed h
  obtain ⟨visit, hvisit, hid, hstands⟩ := hvisited row hrow
  refine ⟨visit, hvisit, hid, ?_⟩
  -- No call failed in the visit, so that it makes the plan for the table.
  rw [hclean, eq_comm, List.filterMap_eq_nil_iff] at hskipped
  have hhas := ShadowStore.hasTable_iff.2 ⟨visit.table, hstands.tracked, rfl⟩
  have hreconciled := Columns.reconciled_applyAll_plan hstands.keyed policy
    ((b.live visit.before).columns visit.table.name) hstands.tracked
  rw [← visit.store_left b policy hstands.keyed hhas
    (Option.map_eq_none_iff.1 (hskipped visit hvisit))] at hreconciled
  rw [← hid, hstands.after.columns]
  exact hreconciled.settled hpolicy ((hstands.after.row row hid.symm).1 hrow) hid.symm

end

end ShadowCatalog
