import ShadowCatalog.Proofs.Memory.World
import ShadowCatalog.Proofs.Reconcile.Pass

/-!
# A pass twice

A pass that leaves no table out settles the catalog (`settled_applyAll_passPlan`), and of
a settled catalog nothing is to be changed (`passPlan_applyAll_passPlan`): the same pass
over again makes no change and leaves the shadow catalog exactly as it is
(`syncPass_again`). So it is for every store that a pass may begin with, and for every
policy that leaves its own orders as they are.

The columns of one table do not disturb what was settled before: the registry is as
it was, and so are the rows and the columns of the other tables (`EachSettled`).
-/

namespace ShadowCatalog

variable {σ : Type} {responder : Responder σ} {b : Backing responder} {state later again : σ}
  {policy : OrderPolicy} {live : LiveView} {store : ShadowStore} {report : SyncReport}
  {tables : List TrackedTable}

/-- Whether a registry is settled is a matter of which tables are tracked. -/
theorem Registry.Settled.of_identity {rows rows' : List TrackedTable}
    (h : Registry.Settled live.tables rows)
    (hsame : rows'.map (·.identity) = rows.map (·.identity)) :
    Registry.Settled live.tables rows' := by
  have hmatch {row row' : TrackedTable} (heq : row'.identity = row.identity) (table : LiveTable) :
      Registry.sameTable row' table = Registry.sameTable row table := by
    rw [TrackedTable.identity, TrackedTable.identity, Prod.mk.injEq, Prod.mk.injEq] at heq
    rw [Registry.sameTable, Registry.sameTable, heq.2.1, heq.2.2]
  refine ⟨fun row' hrow' => ?_, fun table htable => ?_⟩
  · obtain ⟨row, hrow, heq⟩ := List.mem_map.1 (hsame ▸ List.mem_map_of_mem hrow')
    rw [funext (hmatch heq.symm)]
    exact h.isLive row hrow
  · obtain ⟨row, hrow, htrue⟩ := List.any_eq_true.1 (h.tracked table htable)
    obtain ⟨row', hrow', heq⟩ := List.mem_map.1 (hsame ▸ List.mem_map_of_mem hrow :
      row.identity ∈ rows'.map (·.identity))
    exact List.any_eq_true.2 ⟨row', hrow', (hmatch heq table).trans htrue⟩

/-! ## Settling the columns -/

/-- The columns of tables are settled, and all else is as it was. -/
structure EachSettled (policy : OrderPolicy) (live : LiveView) (tables : List TrackedTable)
    (before after : ShadowStore) : Prop where
  identity : after.tables.map (·.identity) = before.tables.map (·.identity)
  settled : ∀ row ∈ after.tables, row.tableId ∈ tables.map (·.tableId) →
    Columns.Settled policy (live.columns row.name) row (after.columnsOf row.tableId)
  rows : ∀ row ∈ after.tables, row.tableId ∉ tables.map (·.tableId) → row ∈ before.tables
  columnsOf : ∀ id ∉ tables.map (·.tableId), after.columnsOf id = before.columnsOf id

/-- A row after the columns of a table were reconciled: that of the table, with a
    new layout, or another one, as it was. -/
theorem Columns.Reconciled.row_cases {lives : List LiveColumn} {table : TrackedTable}
    {after : ShadowStore} (h : Columns.Reconciled policy lives table store after)
    {row : TrackedTable} (hrow : row ∈ after.tables) :
    (row ∈ store.tables ∧ row.tableId ≠ table.tableId) ∨ row.identity = table.identity := by
  obtain ⟨columnIds, htables, _⟩ := h.tables
  rw [htables, ShadowStore.mem_changeRow] at hrow
  obtain hrow | ⟨_, _, _, rfl⟩ := hrow
  · exact .inl hrow
  · exact .inr rfl

theorem Columns.Reconciled.identity {lives : List LiveColumn} {table : TrackedTable}
    {after : ShadowStore} (h : Columns.Reconciled policy lives table store after)
    (hkeyed : store.WellKeyed) (htable : table ∈ store.tables) :
    after.tables.map (·.identity) = store.tables.map (·.identity) := by
  obtain ⟨columnIds, htables, _⟩ := h.tables
  rw [htables, ShadowStore.changeRow, List.map_map]
  refine List.map_congr_left ?_
  intro row hrow
  rw [Function.comp_apply]
  split
  · next hid => rw [hkeyed.table_eq hrow htable hid]; rfl
  · rfl

/-- Reconciling tables one after the other settles the columns of each of them. -/
theorem eachSettled_applyAll (hpolicy : policy.Stable) (h : store.WellKeyed)
    (htables : ∀ table ∈ tables, table ∈ store.tables)
    (hdistinct : tables.Pairwise (·.tableId ≠ ·.tableId)) :
    EachSettled policy live tables store
      (store.applyAll (eachPlan policy live tables store)) := by
  induction tables generalizing store with
  | nil =>
    exact ⟨rfl, fun _ _ h => absurd h List.not_mem_nil, fun _ hrow _ => hrow, fun _ _ => rfl⟩
  | cons table tables ih =>
    rw [List.pairwise_cons] at hdistinct
    rw [List.forall_mem_cons] at htables
    have hfirst :=
      Columns.reconciled_applyAll_plan h policy (live.columns table.name) htables.1
    rw [eachPlan, ShadowStore.applyAll_append]
    have htables' : ∀ other ∈ tables, other ∈ (store.applyAll
        (Columns.plan policy (live.columns table.name) table store)).tables := by
      obtain ⟨columnIds, heq, _⟩ := hfirst.tables
      intro other hother
      rw [heq]
      exact ShadowStore.mem_changeRow.2
        (.inl ⟨htables.2 other hother, (hdistinct.1 other hother).symm⟩)
    have hrest := ih (h.applyAll _) htables' hdistinct.2
    refine ⟨hrest.identity.trans (hfirst.identity h htables.1), fun row hrow hmem => ?_,
      fun row hrow hmem => ?_, fun id hid => ?_⟩
    · by_cases hlater : row.tableId ∈ tables.map (·.tableId)
      · exact hrest.settled row hrow hlater
      -- The row is that of the first table, which the others do not touch.
      · have hid : row.tableId = table.tableId := by
          rw [List.map_cons, List.mem_cons] at hmem
          exact hmem.resolve_right hlater
        have hrow' := hrest.rows row hrow hlater
        have hname : row.name = table.name := by
          obtain ⟨_, hne⟩ | heq := hfirst.row_cases hrow'
          · exact absurd hid hne
          · exact congrArg (·.2.1) heq
        rw [hrest.columnsOf row.tableId hlater, hname, hid]
        exact hfirst.settled hpolicy hrow' hid
    · rw [List.map_cons, List.mem_cons, not_or] at hmem
      obtain ⟨hbefore, _⟩ | heq := hfirst.row_cases (hrest.rows row hrow hmem.2)
      · exact hbefore
      · exact absurd (congrArg Prod.fst heq) hmem.1
    · rw [List.map_cons, List.mem_cons, not_or] at hid
      rw [hrest.columnsOf id hid.2, hfirst.columnsOf id hid.1]

theorem eachPlan_eq_nil
    (h : ∀ table ∈ tables, Columns.plan policy (live.columns table.name) table store = []) :
    eachPlan policy live tables store = [] := by
  induction tables with
  | nil => rfl
  | cons table tables ih =>
    rw [List.forall_mem_cons] at h
    rw [eachPlan, h.1, List.nil_append, ShadowStore.applyAll_nil]
    exact ih h.2

/-! ## Settling the catalog -/

/-- A shadow catalog is settled if its registry is, and the columns of each table. -/
structure ShadowStore.Settled (policy : OrderPolicy) (live : LiveView) (store : ShadowStore) :
    Prop where
  registry : Registry.Settled live.tables store.tables
  columns : ∀ row ∈ store.tables,
    Columns.Settled policy (live.columns row.name) row (store.columnsOf row.tableId)

/-- A pass as planned settles the catalog. -/
theorem settled_applyAll_passPlan (hpolicy : policy.Stable) (live : LiveView)
    (h : store.WellKeyed) : (store.applyAll (passPlan policy live store)).Settled policy live := by
  let opened := store.applyAll (Registry.plan live.tables store)
  have hopened : opened.WellKeyed := h.applyAll _
  have hdistinct : opened.tables.Pairwise (·.tableId ≠ ·.tableId) :=
    hopened.tables.imp fun hlt => Int.ne_of_lt hlt
  have heach : EachSettled policy live opened.tables opened
      (store.applyAll (passPlan policy live store)) := by
    rw [passPlan, ShadowStore.applyAll_append]
    exact eachSettled_applyAll hpolicy hopened (fun _ htable => htable) hdistinct
  refine ⟨(Registry.settled_applyAll_plan h).of_identity heach.identity, fun table htable => ?_⟩
  refine heach.settled table htable ?_
  -- The tables that are tracked are those that were when they were listed.
  obtain ⟨row, hrow, heq⟩ := List.mem_map.1 (heach.identity ▸ List.mem_map_of_mem htable :
    table.identity ∈ opened.tables.map (·.identity))
  exact List.mem_map.2 ⟨row, hrow, congrArg Prod.fst heq⟩

/-- After a pass as planned, nothing more is planned. -/
theorem passPlan_applyAll_passPlan (hpolicy : policy.Stable) (hlive : live.Distinct)
    (h : store.WellKeyed) :
    passPlan policy live (store.applyAll (passPlan policy live store)) = [] := by
  obtain ⟨hregistry, hcolumns⟩ := settled_applyAll_passPlan hpolicy live h
  have hnone := Registry.plan_of_settled hlive.physicalIds hregistry
  rw [passPlan, hnone, List.nil_append, ShadowStore.applyAll_nil]
  refine eachPlan_eq_nil ?_
  intro table htable
  exact Columns.plan_of_settled (h.applyAll _) htable (hlive.positions _) (hcolumns table htable)

/-- A pass that left no table out, done again without a failing call, makes no change. -/
theorem syncPass_again (b : Backing responder) (hsteady : b.Steady) (hpolicy : policy.Stable)
    (hreach : (b.store state).Reachable) (hlive : (b.live state).Distinct)
    (hfirst : (syncPass policy).perform responder state = (.ok report, later))
    (hskipped : report.tablesSkipped = [])
    (hagain : b.live again = b.live state) (hleft : b.store again = b.store later)
    (hunfailing : Unfailing responder ((syncPass policy).course responder again)) :
    ∃ report' after, (syncPass policy).perform responder again = (.ok report', after) ∧
      report'.writes = 0 ∧ report'.tablesSkipped = [] ∧ b.store after = b.store later ∧
      ∀ turn ∈ (syncPass policy).course responder again, ∀ w, turn.call ≠ .write w := by
  have hkeyed := hreach.wellKeyed
  obtain ⟨_, hmade⟩ := passage_syncPass hsteady hkeyed hfirst hskipped
  have hnone : passPlan policy (b.live state) (b.store later) = [] := by
    rw [hmade.store_eq]
    exact passPlan_applyAll_passPlan hpolicy hlive hkeyed
  have hkeyed' : (b.store later).WellKeyed := by
    rw [hmade.store_eq]
    exact hkeyed.applyAll _
  -- The second pass is that of catalogs that answer, whose plan is empty.
  obtain ⟨hrun, hpassage⟩ := syncPass_respond policy (b.live state) hkeyed'
  rw [hnone, ShadowStore.applyAll_nil] at hrun hpassage
  obtain ⟨hsame, hcalls⟩ := b.run_of_unfailing hsteady (syncPass policy).run hunfailing
  rw [hagain, hleft] at hsame hcalls
  obtain ⟨houtcome, hstore⟩ := Prod.mk.inj (hrun.symm.trans hsame)
  refine ⟨{}, _, Prod.ext houtcome.symm rfl, rfl, rfl, hstore.symm, fun turn hturn w hw => ?_⟩
  obtain ⟨other, hother, hcall⟩ := List.mem_map.1
    (hcalls ▸ List.mem_map_of_mem hturn : turn.call ∈ _)
  exact List.not_mem_nil (hpassage.mem_of_write other hother w (hcall.trans hw))

/-- A catalog to which nothing is as it should be: two tables were tracked under one
    physical id and another one was made again since, two columns were tracked at one
    position, and a layout lists columns that are not there. -/
def neglected : World where
  live.entries := [
    ⟨⟨1, "a"⟩, [⟨2, "x", "text", true, none, false, none⟩,
      ⟨1, "k", "int", true, none, true, none⟩]⟩,
    ⟨⟨3, "c"⟩, [⟨1, "q", "int", true, none, false, none⟩]⟩]
  store := ShadowStore.applyAll {} [
    .insertTable "a" 1, .insertTable "b" 1, .insertTable "c" 9,
    .insertColumn 1 ⟨2, "x", "int", true, none, false, none⟩,
    .insertColumn 1 ⟨2, "y", "text", true, none, false, none⟩,
    .insertColumn 3 ⟨5, "z", "text", true, none, false, none⟩,
    .saveLayout 1 (.ofList [7]) [7, 7]]

theorem syncPass_again_neglected :
    ∃ report later report' after,
      (syncPass DisplayOrder.merge).perform World.respond neglected = (.ok report, later) ∧
      report.writes = 12 ∧ report.tablesSkipped = [] ∧
      (syncPass DisplayOrder.merge).perform World.respond later = (.ok report', after) ∧
      report'.writes = 0 ∧ report'.tablesSkipped = [] ∧ after.store = later.store := by
  have hreach : (World.backing.store neglected).Reachable := ShadowStore.Reachable.empty.applyAll _
  have hlive : (World.backing.live neglected).Distinct :=
    World.view_distinct (by decide) (by decide)
  have hfirst : ((syncPass DisplayOrder.merge).perform World.respond neglected).1 =
      .ok ⟨1, 1, 0, 0, 4, 1, 2, 3, []⟩ := by
    cbv
  have hagain : World.backing.live
      ((syncPass DisplayOrder.merge).perform World.respond neglected).2 =
        World.backing.live neglected := World.steady.run _ _
  have hunfailing : Unfailing World.respond ((syncPass DisplayOrder.merge).course World.respond
      ((syncPass DisplayOrder.merge).perform World.respond neglected).2) :=
    unfailing_of_all (by cbv)
  obtain ⟨report', after, hsecond, hwrites, hskipped, hstore, _⟩ :=
    syncPass_again World.backing World.steady DisplayOrder.merge_stable hreach hlive
      (Prod.ext hfirst rfl) rfl hagain rfl hunfailing
  exact ⟨_, _, report', after, Prod.ext hfirst rfl, rfl, rfl, hsecond, hwrites, hskipped, hstore⟩

end ShadowCatalog
