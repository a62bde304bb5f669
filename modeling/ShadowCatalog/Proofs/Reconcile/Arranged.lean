import ShadowCatalog.Proofs.DisplayOrder
import ShadowCatalog.Proofs.Reconcile.InPlace
import ShadowCatalog.Proofs.Reconcile.Presentation
import ShadowCatalog.Proofs.Reconcile.Soundness

/-!
# Tables that are arranged

A table is *arranged* in an order if that is its display order, it lists each of its columns
once, and the columns are in certain places (`ShadowStore.Arranged`). Nothing that a pass
does changes that, as long as the live columns of the table are found in these places
(`Opens.throughout_arranged`): in the visit to the table, rows are brought up to date, but no row is
made or forgotten, and what happens elsewhere spares the table. Nor does the pass so much as
ask for its layout to be saved (`not_saveLayout_of_mem_course`).
-/

namespace ShadowCatalog

variable {σ : Type} {responder : Responder σ} {b : Backing responder} {state : σ}
  {policy : OrderPolicy} {table : TableId} {order : List ColumnId}
  {places : List (ColumnId × Position)}

/-! ## Stores -/

namespace ShadowStore

/-- As long as the table is tracked, it has a display order that lists each of its columns
    once, and these are in places. -/
structure Arranged (table : TableId) (order : List ColumnId)
    (places : List (ColumnId × Position)) (store : ShadowStore) : Prop where
  keyed : store.WellKeyed
  given : table ≤ store.lastTableId
  layout : ∀ row ∈ store.tables, row.tableId = table → row.layout = (.ofList order, order)
  columns : ∀ row ∈ store.tables, row.tableId = table →
    ((store.columnsOf table).map (·.place)).Perm places
  ids : order.Perm (places.map Prod.fst)

namespace Arranged

variable {store later : ShadowStore} {row : TrackedTable}

/-- What carries a table over leaves it arranged. -/
theorem of_carries (h : store.Arranged table order places) (hcarries : store.Carries table later)
    (hkeyed : later.WellKeyed) : later.Arranged table order places := by
  refine ⟨hkeyed, Int.le_trans h.given hcarries.given, fun row hrow hid => ?_,
    fun row hrow hid => ?_, h.ids⟩
  · obtain ⟨old, hold, holdId, hlayout⟩ := hcarries.row row hrow hid
    exact hlayout.trans (h.layout old hold holdId)
  · obtain ⟨old, hold, holdId, -⟩ := hcarries.row row hrow hid
    rw [hcarries.columns row hrow hid]
    exact h.columns old hold holdId

theorem apply_of_spares (h : store.Arranged table order places) {w : Write}
    (hspares : w.Spares table) : (store.apply w).Arranged table order places :=
  h.of_carries (carries_apply hspares h.given) (h.keyed.apply w)

/-- A row that stays in its place may be replaced. -/
theorem updateColumn (h : store.Arranged table order places) {column : TrackedColumn}
    (htable : column.tableId = table) (hplace : column.place ∈ places) :
    (store.apply (.updateColumn column)).Arranged table order places := by
  cases hw : store.write (.updateColumn column) with
  | error cause =>
    rw [apply, hw]
    exact h
  | ok answer =>
    obtain ⟨reply, later⟩ := answer
    have hlater : store.apply (.updateColumn column) = later := apply_of_write hw
    have htables : later.tables = store.tables := by
      obtain ⟨-, rfl⟩ := of_updateColumn_eq_ok hw
      rfl
    have hgiven : store.lastTableId ≤ later.lastTableId := (counters_of_write hw).2.1
    refine ⟨h.keyed.apply _, ?_, ?_, ?_, h.ids⟩
    · rw [hlater]
      exact Int.le_trans h.given hgiven
    · rw [hlater, htables]
      exact h.layout
    · rw [hlater, htables, ← hlater]
      intro row hrow hid
      have hperm := h.columns row hrow hid
      -- The row that is replaced is the one that was in this place.
      obtain ⟨old, hold, hsame⟩ := List.mem_map.1 (hperm.symm.subset hplace)
      have hmem := mem_columnsOf.1 hold
      have hids : column.columnId = old.columnId := congrArg Prod.fst hsame.symm
      rw [columnsOf_updateColumn h.keyed hmem.1 hids (htable.trans hmem.2.symm), List.map_map]
      refine (List.Perm.of_eq (List.map_congr_left fun other hother => ?_)).trans hperm
      rw [Function.comp_apply]
      split
      · next heq =>
        rw [h.keyed.column_eq (mem_columnsOf.1 hother).1 hmem.1 (heq.trans hids), hsame]
      · rfl

theorem applyAll_updates (h : store.Arranged table order places) {ws : List Write}
    (hws : ∀ w ∈ ws, ∃ column, w = .updateColumn column ∧ column.tableId = table ∧
      column.place ∈ places) :
    (store.applyAll ws).Arranged table order places := by
  induction ws generalizing store with
  | nil => exact h
  | cons w ws ih =>
    rw [List.forall_mem_cons] at hws
    obtain ⟨⟨column, rfl, htable, hplace⟩, hrest⟩ := hws
    exact ih (h.updateColumn htable hplace) hrest

variable {lives : List LiveColumn}

/-- Live columns in the same places find the rows there. -/
theorem inPlace (h : store.Arranged table order places) (hrow : row ∈ store.tables)
    (hid : row.tableId = table) (hdistinct : (places.map Prod.snd).Nodup)
    (hlives : (lives.map (·.position)).Perm (places.map Prod.snd)) :
    Columns.InPlace lives (store.columnsOf table) := by
  have hpositions := (h.columns row hrow hid).map Prod.snd
  rw [List.map_map] at hpositions
  exact ⟨List.pairwise_map.1 (hpositions.symm.nodup hdistinct), hpositions.trans hlives.symm⟩

/-- The order lists each column once. -/
theorem columnIds_perm (h : store.Arranged table order places) (hrow : row ∈ store.tables)
    (hid : row.tableId = table) : order.Perm ((store.columnsOf table).map (·.columnId)) := by
  have hcolumns := (h.columns row hrow hid).map Prod.fst
  rw [List.map_map] at hcolumns
  exact h.ids.trans hcolumns.symm

theorem mem_columnIds (h : store.Arranged table order places) (hrow : row ∈ store.tables)
    (hid : row.tableId = table) (id : ColumnId) :
    id ∈ row.columnIds ↔ ∃ column ∈ store.columnsOf table, column.columnId = id := by
  rw [show row.columnIds = .ofList order from congrArg Prod.fst (h.layout row hrow hid),
    IdSet.mem_ofList, (h.columnIds_perm hrow hid).mem_iff, List.mem_map]

theorem nodup (h : store.Arranged table order places) (hrow : row ∈ store.tables)
    (hid : row.tableId = table) : order.Nodup :=
  (h.columnIds_perm hrow hid).symm.nodup (h.keyed.columnsOf_nodup table)

/-- The layout stays as it is. -/
theorem layoutWrites_eq_nil (h : store.Arranged table order places) (hrow : row ∈ store.tables)
    (hid : row.tableId = table) (hdistinct : (places.map Prod.snd).Nodup)
    (hlives : (lives.map (·.position)).Perm (places.map Prod.snd)) :
    Columns.layoutWrites DisplayOrder.merge row (.ofList (Columns.stepIds store.lastColumnId
      (Columns.steps (store.columnsOf row.tableId) lives))) = [] := by
  rw [hid]
  refine (h.inPlace hrow hid hdistinct hlives).layoutWrites_eq_nil _ (h.mem_columnIds hrow hid) ?_
  obtain ⟨hids, horder⟩ := Prod.mk.inj (h.layout row hrow hid)
  rw [hids, horder]
  exact DisplayOrder.merge_of_perm (IdSet.toList_ofList_perm (h.nodup hrow hid)).symm

/-- However much of the plan for its columns is made, the table stays arranged. -/
theorem applyAll_of_isPrefix (h : store.Arranged table order places) (hrow : row ∈ store.tables)
    (hid : row.tableId = table) (hdistinct : (places.map Prod.snd).Nodup)
    (hlives : (lives.map (·.position)).Perm (places.map Prod.snd)) {few : List Write}
    (hfew : few <+: Columns.plan DisplayOrder.merge lives row store) :
    (store.applyAll few).Arranged table order places := by
  have hplan : Columns.plan DisplayOrder.merge lives row store =
      Columns.stepWrites row.tableId (Columns.steps (store.columnsOf row.tableId) lives) := by
    rw [Columns.plan, h.layoutWrites_eq_nil hrow hid hdistinct hlives, List.append_nil]
  refine h.applyAll_updates fun w hw => ?_
  have hmem := hfew.subset hw
  rw [hplan, hid] at hmem
  obtain ⟨column, rfl, old, hold, htable, hplace⟩ :=
    (h.inPlace hrow hid hdistinct hlives).updates w hmem
  refine ⟨column, rfl, htable.trans (mem_columnsOf.1 hold).2, ?_⟩
  rw [hplace]
  exact (h.columns row hrow hid).subset (List.mem_map_of_mem hold)

end Arranged

end ShadowStore

/-! ## Calls for the layout -/

namespace Columns

variable {row : TrackedTable} {report : SyncReport} {turn : Turn σ} {columnIds : IdSet}

theorem mem_layoutWrites_of_mem_saveLayout {w : Write}
    (hturn : turn ∈ (saveLayout policy row columnIds).course responder report state)
    (hcall : turn.call = .write w) : w ∈ layoutWrites policy row columnIds := by
  unfold saveLayout at hturn
  unfold layoutWrites
  dsimp only at hturn ⊢
  split at hturn
  · next hnew =>
    rw [if_pos hnew]
    obtain rfl : turn = ⟨.write _, state⟩ := List.mem_singleton.1 hturn
    exact List.mem_singleton.2 (Call.write.inj hcall).symm
  · exact absurd hturn List.not_mem_nil

/-- While the columns of a table are reconciled, a layout is only saved as the plan says. -/
theorem mem_layoutWrites_of_mem_course (h : (b.store state).WellKeyed)
    (hrow : (b.store state).hasTable row.tableId = true)
    (hturn : turn ∈ (reconcile policy row).course responder report state)
    (hcall : turn.call = .write (.saveLayout table columnIds order)) :
    .saveLayout table columnIds order ∈ layoutWrites policy row
      (.ofList (stepIds (b.store state).lastColumnId
        (steps ((b.store state).columnsOf row.tableId) ((b.live state).columns row.name)))) := by
  have hsteps := (ShadowStore.each_append.1
    (acceptsAll_plan h policy ((b.live state).columns row.name) hrow)).1
  rw [reconcile_eq] at hturn
  rcases SyncTask.mem_course_bind.1 hturn with hturn | ⟨listed, report', first, hlisting, hturn⟩
  · have hreads : SyncTask.Asks (fun call => ∀ w, call ≠ .write w) (listing row) :=
      .bind (.ask nofun) fun _ => .bind (.ask nofun) fun _ => .pure _
    exact absurd hcall ((hreads report).of_mem_course turn hturn _)
  obtain ⟨rfl, -, hpassage⟩ := (follows_listing (b := b) row).of_ok hlisting
  have hfirst : b.store first = b.store state := hpassage.store_eq
  rcases SyncTask.mem_course_bind.1 hturn with hturn | ⟨ids, report'', second, hperform, hturn⟩
  · have hcolumns (todo : List Step) : SyncTask.Asks (fun call => ∀ table ids order,
        call ≠ .write (.saveLayout table ids order)) (perform row.tableId todo) :=
      asks_perform (fun _ => nofun) (fun _ => nofun) (fun _ => nofun) todo
    exact absurd hcall ((hcolumns _ report').of_mem_course turn hturn _ _ _)
  · have hfollows := follows_perform (hfirst ▸ hsteps)
    rw [hfirst] at hfollows
    obtain ⟨rfl, -, -⟩ := hfollows.of_ok hperform
    exact mem_layoutWrites_of_mem_saveLayout hturn hcall

theorem tableId_of_mem_layoutWrites {present : IdSet}
    (h : .saveLayout table columnIds order ∈ layoutWrites policy row present) :
    table = row.tableId := by
  unfold layoutWrites at h
  dsimp only at h
  split at h
  · exact (Write.saveLayout.inj (List.mem_singleton.1 h)).1
  · exact absurd h List.not_mem_nil

end Columns

/-! ## Passes -/

/-- In the next pass, the live columns of a table are found at positions. -/
def Backing.FindsAt (b : Backing responder) (table : TableId) (positions : List Position)
    (state : σ) : Prop :=
  ∀ visit ∈ passVisits DisplayOrder.merge responder state, visit.table.tableId = table →
    (((b.live visit.before).columns visit.table.name).map (·.position)).Perm positions

theorem Backing.FindsAt.of_perm {positions others : List Position}
    (h : b.FindsAt table positions state) (hperm : positions.Perm others) :
    b.FindsAt table others state :=
  fun visit hvisit hid => (h visit hvisit hid).trans hperm

section

variable (h : (b.store state).Arranged table order places)
include h

/-- A table stays arranged throughout the opening of a pass. -/
theorem throughout_opening_arranged :
    opening.Throughout responder (fun s => (b.store s).Arranged table order places) {} state :=
  b.throughout_of_asks (p := fun store => store.Arranged table order places) (asks_opening {})
    (fun _ hw _ harranged =>
      harranged.apply_of_spares (Write.spares_of_ofRegistry hw table)) h

variable (hdistinct : (places.map Prod.snd).Nodup)
  (hfinds : b.FindsAt table (places.map Prod.snd) state)
include hdistinct hfinds

/-- A table stays arranged throughout the visits of a pass. -/
theorem Opens.throughout_arranged {middle : σ} {report : SyncReport}
    (hopens : Opens b state middle report) :
    (∀ visit ∈ passVisits DisplayOrder.merge responder state,
        (b.store visit.before).Arranged table order places) ∧
      (reconcileEach DisplayOrder.merge (b.store middle).tables).Throughout responder
        (fun s => (b.store s).Arranged table order places) report middle := by
  have hlast := (throughout_opening_arranged h).last
  rw [hopens.perform_eq] at hlast
  have hpasses := hopens.passVisits_eq DisplayOrder.merge
  rw [Backing.FindsAt, hpasses] at hfinds
  rw [hpasses]
  refine throughout_reconcileEach (p := fun s => (b.store s).Arranged table order places) hlast
    report fun visit hvisit harranged => ?_
  have hstands := stands_visits hopens.due DisplayOrder.merge report visit hvisit
  have hhas := ShadowStore.hasTable_iff.2 ⟨visit.table, hstands.tracked, rfl⟩
  refine (Columns.follows_reconcile hstands.keyed DisplayOrder.merge hhas).throughout
    (p := fun store => store.Arranged table order places) (fun few hfew => ?_) visit.report
  -- It is this table that is visited, or another one.
  by_cases hid : visit.table.tableId = table
  · exact harranged.applyAll_of_isPrefix hstands.tracked hid hdistinct (hfinds visit hvisit hid)
      hfew
  · exact harranged.of_carries
      (Columns.carries_applyAll_of_isPrefix hstands.keyed hstands.tracked hfew (Ne.symm hid))
      (hstands.keyed.applyAll few)

/-- Wherever a pass ends, a table that was arranged still is. -/
theorem arranged_of_mem_states {later : σ}
    (hlater : later ∈ (syncPass DisplayOrder.merge).states responder state) :
    (b.store later).Arranged table order places := by
  revert later
  rw [throughout_syncPass (p := fun s => (b.store s).Arranged table order places), passStretch_eq,
    SyncTask.throughout_bind]
  refine ⟨throughout_opening_arranged h, ?_⟩
  rcases hopening : opening.perform responder {} state with ⟨⟨error | tables, report⟩, middle⟩
  · exact trivial
  · have hopens : Opens b state middle report := opens_of_ok h.keyed hopening
    obtain rfl : tables = (b.store middle).tables := by
      have hsame := hopening.symm.trans hopens.perform_eq
      cases hsame
      rfl
    exact (hopens.throughout_arranged h hdistinct hfinds).2

/-- A pass does not ask for the layout of a table to be saved that is arranged. -/
theorem not_saveLayout_of_mem_course {turn : Turn σ}
    (hturn : turn ∈ (syncPass DisplayOrder.merge).course responder state) (columnIds : IdSet)
    (displayOrder : List ColumnId) :
    turn.call ≠ .write (.saveLayout table columnIds displayOrder) := by
  intro hcall
  have hregistry (hopening : turn ∈ opening.course responder {} state) : False := by
    have hcall' := (asks_opening {}).of_mem_course turn hopening
    rw [hcall] at hcall'
    cases hcall'
  rcases hopening : opening.perform responder {} state with ⟨⟨error | tables, report⟩, middle⟩
  · rw [(syncPass_of_opening_error _ hopening).2] at hturn
    exact hregistry hturn
  · have hopens : Opens b state middle report := opens_of_ok h.keyed hopening
    rw [(syncPass_of_opening_ok _ hopens.perform_eq).2, course_reconcileEach,
      ← hopens.passVisits_eq, List.mem_append, List.mem_flatMap] at hturn
    rcases hturn with hturn | ⟨visit, hvisit, hturn⟩
    · exact hregistry hturn
    · have hstands := hopens.stands DisplayOrder.merge visit hvisit
      have harranged := (hopens.throughout_arranged h hdistinct hfinds).1 visit hvisit
      have hwrites := Columns.mem_layoutWrites_of_mem_course hstands.keyed
        (ShadowStore.hasTable_iff.2 ⟨visit.table, hstands.tracked, rfl⟩) hturn hcall
      -- Only the visit to this table could save its layout, and it does not.
      have hid := Columns.tableId_of_mem_layoutWrites hwrites
      rw [harranged.layoutWrites_eq_nil hstands.tracked hid.symm hdistinct
        (hfinds visit hvisit hid.symm)] at hwrites
      exact absurd hwrites List.not_mem_nil

end

end ShadowCatalog
