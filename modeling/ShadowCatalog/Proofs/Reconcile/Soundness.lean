import ShadowCatalog.Proofs.Memory.Coherence
import ShadowCatalog.Proofs.Reconcile.Pass

/-!
# A pass keeps the catalog sound

Each change of a pass is admitted when it is made: so the shadow catalog is sound
throughout the pass, wherever it ends, if it was sound before
(`throughout_syncPass_sound`). The live tables have to differ in their physical ids
and the columns of each in their positions, and the policy has to list each column.

* A refresh takes a physical id that no row holds, as `held` lists all that rows hold
  (`Registry.admitsAll_refreshesFrom`).
* After the removals a row with the physical id of a live table is that table, so
  that a table which is then inserted has an id that no row holds
  (`Registry.admitsAll_insertions`).
* Where a row is made for a live column, those to be matched are at other positions,
  and those that were matched are at the positions of other live columns
  (`Columns.admitsAll_matchUp`).
-/

namespace ShadowCatalog

variable {σ : Type} {responder : Responder σ} {b : Backing responder} {state : σ}
  {store : ShadowStore} {policy : OrderPolicy}

/-! ## The registry -/

namespace Registry

variable {live : List LiveTable}

theorem admitsAll_renames (rows : List TrackedTable) : store.AdmitsAll (renames live rows) := by
  refine ShadowStore.each_of_forall ?_
  intro w hw store
  obtain ⟨_, _, _, _, rfl⟩ := of_mem_renames hw
  exact trivial

/-- A row that takes a physical id holds it, and nothing else is held anew. -/
theorem physicalId_apply_updatePhysicalId {table : TableId} {physicalId : PhysicalId}
    {row : TrackedTable}
    (hrow : row ∈ (store.apply (.updatePhysicalId table physicalId)).tables) :
    row.physicalId = physicalId ∨ row ∈ store.tables := by
  cases hw : store.write (.updatePhysicalId table physicalId) with
  | error cause =>
    rw [ShadowStore.apply, hw] at hrow
    exact .inr hrow
  | ok answer =>
    obtain ⟨reply, later⟩ := answer
    rw [ShadowStore.apply_of_write hw] at hrow
    obtain ⟨_, rfl⟩ := ShadowStore.of_changeTable_eq_ok hw
    rcases ShadowStore.mem_changeRow.1 hrow with ⟨hrow, _⟩ | ⟨old, _, _, rfl⟩
    · exact .inr hrow
    · exact .inl rfl

theorem admitsAll_refreshesFrom {held : List PhysicalId} {rows : List TrackedTable}
    (hheld : ∀ row ∈ store.tables, row.physicalId ∈ held) :
    store.AdmitsAll (refreshesFrom live held rows) := by
  induction rows generalizing store held with
  | nil => exact trivial
  | cons row rows ih =>
    rw [refreshesFrom]
    cases live.find? (·.name = row.name) with
    | none => exact ih hheld
    | some current =>
      dsimp only
      split
      · exact ih hheld
      · next hfree =>
        refine ⟨fun other hother heq => hfree (heq ▸ hheld other hother),
          ih fun other hother => ?_⟩
        rcases physicalId_apply_updatePhysicalId hother with heq | hother
        · exact List.mem_cons.2 (.inl heq)
        · exact List.mem_cons_of_mem _ (hheld other hother)

theorem admitsAll_removals (rows : List TrackedTable) : store.AdmitsAll (removals live rows) := by
  refine ShadowStore.each_of_forall ?_
  intro w hw store
  obtain ⟨_, _, rfl⟩ := of_mem_removals hw
  exact trivial

theorem admitsAll_insertTables {tables : List LiveTable}
    (hids : tables.Pairwise (·.physicalId ≠ ·.physicalId))
    (hfree : ∀ table ∈ tables, ∀ row ∈ store.tables, row.physicalId ≠ table.physicalId) :
    store.AdmitsAll (tables.map fun table => .insertTable table.name table.physicalId) := by
  induction tables generalizing store with
  | nil => exact trivial
  | cons table tables ih =>
    rw [List.pairwise_cons] at hids
    rw [List.forall_mem_cons] at hfree
    refine ⟨hfree.1, ih hids.2 fun other hother row hrow => ?_⟩
    rcases List.mem_append.1 hrow with hrow | hrow
    · exact hfree.2 other hother row hrow
    · rw [List.mem_singleton.1 hrow]
      exact hids.1 other hother

/-- Where every row is a live table, a live table that is not tracked has a physical
    id that no row holds. -/
theorem admitsAll_insertions (hids : live.Pairwise (·.physicalId ≠ ·.physicalId))
    (hlive : ∀ row ∈ store.tables, live.any (sameTable row) = true) :
    store.AdmitsAll (insertions live store.tables) := by
  refine admitsAll_insertTables (hids.filter _) ?_
  intro table htable row hrow heq
  obtain ⟨htable, hnew⟩ := List.mem_filter.1 htable
  obtain ⟨other, hother, hsame⟩ := List.any_eq_true.1 (hlive row hrow)
  -- The row is some live table, and by its physical id this one, which is then
  -- tracked already.
  have hother : other = table :=
    List.inj_on_of_nodup_map (List.pairwise_map.2 hids) hother htable
      ((sameTable_iff.1 hsame).2.trans heq)
  rw [Bool.not_eq_true', List.any_eq_false] at hnew
  exact hnew row hrow (hother ▸ hsame)

/-- The changes of the steps are admitted, one after the other. -/
theorem admitsAll_plan (h : store.WellKeyed) (hids : live.Pairwise (·.physicalId ≠ ·.physicalId)) :
    store.AdmitsAll (plan live store) := by
  refine ShadowStore.each_append.2 ⟨admitsAll_renames _, ?_⟩
  have hrenamed := wellKeyed_stage h live renames
  refine ShadowStore.each_append.2
    ⟨admitsAll_refreshesFrom fun row hrow => List.mem_map_of_mem hrow, ?_⟩
  have hrefreshed := wellKeyed_stage hrenamed live refreshes
  refine ShadowStore.each_append.2 ⟨admitsAll_removals _, ?_⟩
  exact ShadowStore.each_append.2
    ⟨admitsAll_insertions hids (live_of_stage_removals hrefreshed), trivial⟩

end Registry

/-! ## The columns of a table -/

namespace Columns

variable {table : TableId} {rows done : List TrackedColumn} {lives : List LiveColumn}

theorem admitsAll_deletes (rows : List TrackedColumn) :
    store.AdmitsAll (stepWrites table (rows.map fun row => .delete row.columnId)) := by
  refine ShadowStore.each_of_forall ?_
  intro w hw store
  obtain ⟨step, hstep, hsome⟩ := List.mem_filterMap.1 hw
  obtain ⟨row, _, rfl⟩ := List.mem_map.1 hstep
  cases hsome
  exact trivial

/-- Live columns that are still to be matched are not at a position of a row that
    was matched. -/
theorem admitsAll_matchUp (h : Midway store table rows done)
    (hpositions : rows.Pairwise (·.position ≠ ·.position))
    (hlives : lives.Pairwise (·.position ≠ ·.position))
    (hdone : ∀ row ∈ done, ∀ live ∈ lives, row.position ≠ live.position) :
    store.AdmitsAll (stepWrites table (matchUp rows lives)) := by
  induction lives generalizing store rows done with
  | nil => exact admitsAll_deletes rows
  | cons live lives ih =>
    rw [List.pairwise_cons] at hlives
    have hlater : ∀ row ∈ done, ∀ other ∈ lives, row.position ≠ other.position :=
      fun row hrow other hother => hdone row hrow other (List.mem_cons_of_mem _ hother)
    rw [matchUp]
    cases hfind : rows.find? (·.position = live.position) with
    | none =>
      refine ⟨fun row hrow htable => ?_, ih (h.insert live).2 hpositions hlives.2
        (List.forall_mem_cons.2 ⟨hlives.1, hlater⟩)⟩
      -- A row of the table is still to be matched, and then there is none at the
      -- position, or it was matched with another live column.
      rcases List.mem_append.1 (h.perm.subset (ShadowStore.mem_columnsOf.2 ⟨hrow, htable⟩))
        with hrow | hrow
      · simpa using List.find?_eq_none.1 hfind row hrow
      · exact hdone row hrow live List.mem_cons_self
    | some row =>
      obtain ⟨hposition, hperm⟩ := perm_cons_filter hpositions hfind
      have hat := h.of_perm hperm
      have hpositions' := hpositions.filter (·.position ≠ live.position)
      dsimp only
      rw [matched]
      split
      · refine ⟨⟨row, (ShadowStore.mem_columnsOf.1 hat.mem_columnsOf).1, rfl, rfl, hposition⟩,
          ih (hat.update live).2 hpositions' hlives.2
            (List.forall_mem_cons.2 ⟨hlives.1, hlater⟩)⟩
      · refine ih hat.keep hpositions' hlives.2 (List.forall_mem_cons.2 ⟨?_, hlater⟩)
        rw [hposition]
        exact hlives.1

theorem admitsAll_steps (h : store.WellKeyed) (htable : store.hasTable table = true)
    (hlives : lives.Pairwise (·.position ≠ ·.position)) :
    store.AdmitsAll (stepWrites table (steps (store.columnsOf table) lives)) := by
  rw [steps, stepWrites_append]
  exact ShadowStore.each_append.2 ⟨admitsAll_deletes _,
    admitsAll_matchUp (midway_candidates h htable).2 (firsts_pairwise [] _) hlives
      fun _ hrow => absurd hrow List.not_mem_nil⟩

theorem admitsAll_layoutWrites (hpolicy : policy.ListsEach) (table : TrackedTable)
    (columnIds : IdSet) : store.AdmitsAll (layoutWrites policy table columnIds) := by
  unfold layoutWrites
  dsimp only
  split
  · exact ⟨hpolicy table.displayOrder columnIds, trivial⟩
  · exact trivial

/-- The changes that reconcile the columns of a table are admitted, one after the
    other. -/
theorem admitsAll_plan (h : store.WellKeyed) (hpolicy : policy.ListsEach) {table : TrackedTable}
    (htable : store.hasTable table.tableId = true)
    (hlives : lives.Pairwise (·.position ≠ ·.position)) :
    store.AdmitsAll (plan policy lives table store) :=
  ShadowStore.each_append.2
    ⟨admitsAll_steps h htable hlives, admitsAll_layoutWrites hpolicy table _⟩

end Columns

/-! ## The pass -/

theorem throughout_opening_sound (h : (b.store state).Sound) (hlive : (b.live state).Distinct)
    (report : SyncReport) :
    opening.Throughout responder (fun s => (b.store s).Sound) report state :=
  (follows_opening h.toWellKeyed).throughout
    (fun _ hfew => h.applyAll_of_isPrefix
      (Registry.admitsAll_plan h.toWellKeyed hlive.physicalIds) hfew) report

/-- Whether a table is left out or not, the pass goes on. -/
theorem reconcileOrSkip_ok (policy : OrderPolicy) (table : TrackedTable) (responder : Responder σ)
    (report : SyncReport) (state : σ) :
    ∃ report' later, (reconcileOrSkip policy table).perform responder report state =
      ((.ok (), report'), later) := by
  rw [reconcileOrSkip, SyncTask.perform_tryCatch]
  rcases (Columns.reconcile policy table).perform responder report state with
    ⟨⟨error | _, report'⟩, later⟩
  · exact ⟨_, later, SyncTask.perform_modify _ _ _ _⟩
  · exact ⟨report', later, rfl⟩

variable {tables : List TrackedTable} {report : SyncReport}

/-- The catalog is sound while the columns of a table are reconciled, and the other
    tables can still be reconciled. -/
theorem throughout_reconcileOrSkip_sound (hpolicy : policy.ListsEach) {table : TrackedTable}
    (hready : Ready (table :: tables) (b.store state)) (h : (b.store state).Sound)
    (hlive : (b.live state).Distinct) (report : SyncReport) :
    (reconcileOrSkip policy table).Throughout responder
      (fun s => (b.store s).Sound ∧ Ready tables (b.store s)) report state := by
  -- The invariant holds after the first few changes of the plan, however few.
  exact throughout_reconcileOrSkip ((hready.follows policy).throughout
    (p := fun store => store.Sound ∧ Ready tables store)
    (fun few hfew => ⟨h.applyAll_of_isPrefix (Columns.admitsAll_plan hready.1 hpolicy
      (hready.2 table List.mem_cons_self) (hlive.positions table.name)) hfew,
      hready.applyAll hfew⟩) report)

theorem throughout_reconcileEach_sound (hpolicy : policy.ListsEach)
    (hready : Ready tables (b.store state)) (h : (b.store state).Sound)
    (hlive : (reconcileEach policy tables).Throughout responder (fun s => (b.live s).Distinct)
      report state) :
    (reconcileEach policy tables).Throughout responder (fun s => (b.store s).Sound)
      report state := by
  induction tables generalizing state report with
  | nil => exact h
  | cons table tables ih =>
    rw [reconcileEach, SyncTask.throughout_bind] at hlive ⊢
    have hdistinct := hlive.1.first
    have hfirst := throughout_reconcileOrSkip_sound hpolicy hready h hdistinct report
    obtain ⟨report', later, hrun⟩ := reconcileOrSkip_ok policy table responder report state
    obtain ⟨hsound, hrest⟩ := hfirst.last
    rw [hrun] at hlive hsound hrest ⊢
    exact ⟨Program.Throughout.imp hfirst fun _ => And.left, ih hrest hsound hlive.2⟩

theorem throughout_syncPass {p : σ → Prop} :
    (∀ s ∈ (syncPass policy).states responder state, p s) ↔
      (passStretch policy).Throughout responder p {} state := by
  rw [CatalogTask.forall_mem_states]
  exact Program.throughout_bind.trans (and_iff_left_of_imp Program.Throughout.last)

/-- Throughout a pass the catalog is sound, if it was before: whichever calls fail,
    and whether or not the live catalog changes meanwhile. -/
theorem throughout_syncPass_sound (hpolicy : policy.ListsEach) (h : (b.store state).Sound)
    (hlive : ∀ s ∈ (syncPass policy).states responder state, (b.live s).Distinct) :
    ∀ s ∈ (syncPass policy).states responder state, (b.store s).Sound := by
  rw [throughout_syncPass, passStretch_eq, SyncTask.throughout_bind] at hlive ⊢
  have hdistinct := hlive.1.first
  have hopening := throughout_opening_sound h hdistinct {}
  refine ⟨hopening, ?_⟩
  have hlast := hopening.last
  rcases hrun : opening.perform responder {} state with ⟨⟨error | tables, report⟩, later⟩
  · exact trivial
  · rw [hrun] at hlive hlast
    -- The tables that were listed are those that are tracked when the columns are begun.
    obtain ⟨rfl, _, hpassage⟩ := (follows_opening h.toWellKeyed).of_ok hrun
    refine throughout_reconcileEach_sound hpolicy ?_ hlast hlive.2
    rw [← hpassage.store_eq]
    exact ready_tables hlast.toWellKeyed

end ShadowCatalog
