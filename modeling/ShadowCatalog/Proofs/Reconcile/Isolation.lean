import ShadowCatalog.Proofs.Memory.World
import ShadowCatalog.Proofs.Reconcile.Pass

/-!
# Isolation

The second part of a pass *visits* the tables that are tracked, one after the other
(`visits`). The calls of a visit are those for the columns and the layout of its table,
up to the first that fails (`Visit.calls`, `Visit.failure?`).

A failure stays with the table of its visit (`syncPass_isolates`): the table is left
out, its row is as it was, and so are its columns unless some of them were changed
before the call that failed. All other tables are renewed, just as if nothing had
failed (`Columns.Outcome`). What carries this is that a visit leaves every other table
as it is, the row and the columns (`ShadowStore.Alike`), whatever fails in it.
-/

namespace ShadowCatalog

variable {σ : Type} {responder : Responder σ} {b : Backing responder} {state later : σ}
  {policy : OrderPolicy} {tables : List TrackedTable} {table : TrackedTable}
  {before after : ShadowStore} {lives : List LiveColumn}

/-! ## Visits -/

/-- The part of a pass that reconciles the columns of one table: the table as it was
    listed, and the report and the state with which the part begins. -/
structure Visit (σ : Type) where
  table : TrackedTable
  report : SyncReport
  before : σ

namespace Visit

variable (policy : OrderPolicy) (responder : Responder σ) (visit : Visit σ)

/-- The calls for the table. -/
def calls : List (Turn σ) :=
  (Columns.reconcile policy visit.table).course responder visit.report visit.before

/-- The first call for the table that failed, and its error. -/
def failure? : Option (Call × Error) := Turn.failure? responder (visit.calls policy responder)

/-- The table as it is reported, if a call for it failed. -/
def skipped? : Option SkippedTable :=
  (visit.failure? policy responder).map fun failure => ⟨visit.table.name, failure.2.message⟩

/-- The state that is left. -/
def left : σ :=
  ((reconcileOrSkip policy visit.table).perform responder visit.report visit.before).2

end Visit

/-- The visits of tables, one after the other. -/
def visits (policy : OrderPolicy) (responder : Responder σ) :
    List TrackedTable → SyncReport → σ → List (Visit σ)
  | [], _, _ => []
  | table :: tables, report, state =>
    let left := (reconcileOrSkip policy table).perform responder report state
    ⟨table, report, state⟩ :: visits policy responder tables left.1.2 left.2

/-- The visits of a pass: to the tables that are tracked after its opening. -/
def passVisits (policy : OrderPolicy) (responder : Responder σ) (state : σ) : List (Visit σ) :=
  match opening.perform responder {} state with
  | ((.ok tables, report), middle) => visits policy responder tables report middle
  | ((.error _, _), _) => []

theorem map_table_visits (policy : OrderPolicy) (responder : Responder σ)
    (tables : List TrackedTable) (report : SyncReport) (state : σ) :
    (visits policy responder tables report state).map (·.table) = tables := by
  induction tables generalizing report state with
  | nil => rfl
  | cons table tables ih => exact congrArg (table :: ·) (ih _ _)

/-- The calls of the second part of a pass are those of the visits. -/
theorem course_reconcileEach (policy : OrderPolicy) (responder : Responder σ)
    (tables : List TrackedTable) (report : SyncReport) (state : σ) :
    (reconcileEach policy tables).course responder report state =
      (visits policy responder tables report state).flatMap (·.calls policy responder) := by
  induction tables generalizing report state with
  | nil => rfl
  | cons table tables ih =>
    rw [(reconcileEach_cons policy responder table tables report state).2, visits,
      List.flatMap_cons, ih]
    rfl

/-! ## What becomes of a table -/

namespace Columns

/-- A table is renewed: it has one row for each live column, of the same position, name
    and type, and the layout for these rows. A row that had the least id at the position
    of a live column is kept there. -/
structure Renewed (policy : OrderPolicy) (lives : List LiveColumn) (table : TrackedTable)
    (before after : ShadowStore) : Prop where
  row : ∃ columnIds, laidOut policy columnIds table ∈ after.tables ∧
    ∀ id, id ∈ columnIds ↔ ∃ row ∈ after.columnsOf table.tableId, row.columnId = id
  described : ((after.columnsOf table.tableId).map (·.description)).Perm
    (lives.map (·.description))
  kept : ∀ row live, Lasting (before.columnsOf table.tableId) row → live ∈ lives →
    row.position = live.position → row.apply live ∈ after.columnsOf table.tableId

/-- The plan for the columns of a table renews it. -/
theorem renewed_applyAll_plan (h : before.WellKeyed) (policy : OrderPolicy)
    (htable : table ∈ before.tables) (hlives : lives.Pairwise (·.position ≠ ·.position)) :
    Renewed policy lives table before (before.applyAll (plan policy lives table before)) := by
  have hreconciled := reconciled_applyAll_plan h policy lives htable
  obtain ⟨columnIds, htables, hids⟩ := hreconciled.tables
  refine ⟨⟨columnIds, ?_, hids⟩, hreconciled.described, fun row live hrow hlive hat => ?_⟩
  · rw [htables, ShadowStore.mem_changeRow]
    exact .inr ⟨table, htable, rfl, rfl⟩
  · exact apply_mem_columnsOf_applyAll_plan h policy htable hlives hrow hlive hat

/-- A table is left out: its row is as it was, and its columns are if the call that failed
    is one of those that list them. -/
structure LeftOut (call : Call) (table : TrackedTable) (before after : ShadowStore) : Prop where
  row : table ∈ after.tables
  columns : (∀ w, call ≠ .write w) →
    after.columnsOf table.tableId = before.columnsOf table.tableId

/-- What becomes of a table: it is renewed, unless a call for it failed. -/
def Outcome (policy : OrderPolicy) (lives : List LiveColumn) (table : TrackedTable)
    (failure? : Option (Call × Error)) (before after : ShadowStore) : Prop :=
  match failure? with
  | none => Renewed policy lives table before after
  | some (call, _) => LeftOut call table before after

end Columns

/-- What becomes of a table depends on nothing else in the stores before and after. -/
theorem Columns.Outcome.of_alike {failure? : Option (Call × Error)} {first last : ShadowStore}
    (h : Outcome policy lives table failure? before after)
    (hbefore : ShadowStore.Alike table.tableId first before)
    (hafter : ShadowStore.Alike table.tableId after last) :
    Outcome policy lives table failure? first last := by
  cases failure? with
  | none =>
    obtain ⟨⟨columnIds, hrow, hids⟩, hdescribed, hkept⟩ := h
    refine ⟨⟨columnIds, (hafter.row (laidOut policy columnIds table) rfl).2 hrow, ?_⟩, ?_, ?_⟩
    · rw [hafter.columns]
      exact hids
    · rw [hafter.columns]
      exact hdescribed
    · rw [hafter.columns, ← hbefore.columns]
      exact hkept
  | some failure =>
    refine ⟨(hafter.row table rfl).2 h.row, fun hread => ?_⟩
    rw [hafter.columns, h.columns hread, hbefore.columns]

/-! ## One visit -/

/-- A visit makes the plan for the columns of its table, or a call fails before the layout is
    saved; if that call is a question, nothing has been changed. Then the table is left
    out. -/
theorem Visit.cases (b : Backing responder) (visit : Visit σ) (policy : OrderPolicy)
    (h : (b.store visit.before).WellKeyed)
    (htable : (b.store visit.before).hasTable visit.table.tableId = true) :
    let lives := (b.live visit.before).columns visit.table.name
    let left := (reconcileOrSkip policy visit.table).perform responder visit.report visit.before
    left.1.2.tablesSkipped =
        visit.report.tablesSkipped ++ (visit.skipped? policy responder).toList ∧
      (visit.failure? policy responder = none ∧ b.store (visit.left policy responder) =
          (b.store visit.before).applyAll
            (Columns.plan policy lives visit.table (b.store visit.before)) ∨
        ∃ call error few, visit.failure? policy responder = some (call, error) ∧
          few <+: Columns.stepWrites visit.table.tableId
            (Columns.steps ((b.store visit.before).columnsOf visit.table.tableId) lives) ∧
          ((∀ w, call ≠ .write w) → few = []) ∧
          b.store (visit.left policy responder) = (b.store visit.before).applyAll few) := by
  obtain ⟨table, report, state⟩ := visit
  dsimp only [Visit.left] at h htable ⊢
  rw [reconcileOrSkip, SyncTask.perform_tryCatch]
  rcases Columns.reconcile_cases h policy htable report with ⟨later, hdone⟩ |
    ⟨turns, few, call, middle, error, hfew, hread, hbreaks⟩
  · have hfailure : Visit.failure? policy responder ⟨table, report, state⟩ = none :=
      hdone.passage.failure?_eq_none
    rw [hdone.perform_eq, Visit.skipped?, hfailure]
    exact ⟨(tablesSkipped_countingAll _ _).trans (List.append_nil _).symm,
      .inl ⟨rfl, hdone.passage.store_eq⟩⟩
  · have hfailure : Visit.failure? policy responder ⟨table, report, state⟩ = some (call, error) :=
      hbreaks.failure?_eq
    rw [hbreaks.perform_eq, Visit.skipped?, hfailure]
    exact ⟨congrArg (· ++ [_]) (tablesSkipped_countingAll report few),
      .inr ⟨call, error, few, rfl, hfew, hread, hbreaks.store_eq.trans hbreaks.passage.store_eq⟩⟩

/-- A visit in which no call fails makes the plan. -/
theorem Visit.store_left (b : Backing responder) (visit : Visit σ) (policy : OrderPolicy)
    (h : (b.store visit.before).WellKeyed)
    (htable : (b.store visit.before).hasTable visit.table.tableId = true)
    (hfailure : visit.failure? policy responder = none) :
    b.store (visit.left policy responder) = (b.store visit.before).applyAll
      (Columns.plan policy ((b.live visit.before).columns visit.table.name) visit.table
        (b.store visit.before)) := by
  rcases (visit.cases b policy h htable).2 with ⟨-, hstore⟩ | ⟨_, _, _, hsome, -⟩
  · exact hstore
  · exact absurd (hfailure.symm.trans hsome) nofun

/-- A visit makes the first few changes of the plan for its table. -/
theorem Visit.exists_isPrefix (b : Backing responder) (visit : Visit σ) (policy : OrderPolicy)
    (h : (b.store visit.before).WellKeyed)
    (htable : (b.store visit.before).hasTable visit.table.tableId = true) :
    ∃ few, few <+: Columns.plan policy ((b.live visit.before).columns visit.table.name) visit.table
        (b.store visit.before) ∧
      b.store (visit.left policy responder) = (b.store visit.before).applyAll few := by
  rcases (visit.cases b policy h htable).2 with ⟨-, hstore⟩ | ⟨_, _, few, -, hfew, -, hstore⟩
  · exact ⟨_, List.prefix_rfl, hstore⟩
  · exact ⟨few, hfew.trans (List.prefix_append _ _), hstore⟩

/-- A visit leaves every other table as it is. -/
theorem Visit.alike (b : Backing responder) (visit : Visit σ) (policy : OrderPolicy)
    (h : (b.store visit.before).WellKeyed) (htable : visit.table ∈ (b.store visit.before).tables)
    {id : TableId} (hne : id ≠ visit.table.tableId) :
    ShadowStore.Alike id (b.store visit.before) (b.store (visit.left policy responder)) := by
  obtain ⟨few, hfew, hstore⟩ :=
    visit.exists_isPrefix b policy h (ShadowStore.hasTable_iff.2 ⟨_, htable, rfl⟩)
  rw [hstore]
  exact Columns.alike_applyAll_of_isPrefix h htable hfew hne

theorem Visit.wellKeyed_left (b : Backing responder) (visit : Visit σ) (policy : OrderPolicy)
    (h : (b.store visit.before).WellKeyed) :
    (b.store (visit.left policy responder)).WellKeyed :=
  (b.throughout_wellKeyed ((reconcileOrSkip policy visit.table).run visit.report) h).last

/-- What one visit comes to. -/
structure Visit.Leaves (b : Backing responder) (policy : OrderPolicy) (lives : List LiveColumn)
    (visit : Visit σ) (report : SyncReport) (later : σ) : Prop where
  keyed : (b.store later).WellKeyed
  outcome : Columns.Outcome policy lives visit.table (visit.failure? policy responder)
    (b.store visit.before) (b.store later)
  alike : ∀ id, id ≠ visit.table.tableId →
    ShadowStore.Alike id (b.store visit.before) (b.store later)
  skipped : report.tablesSkipped =
    visit.report.tablesSkipped ++ (visit.skipped? policy responder).toList

theorem Visit.leaves (visit : Visit σ) (policy : OrderPolicy)
    (h : (b.store visit.before).WellKeyed) (htable : visit.table ∈ (b.store visit.before).tables)
    (hlives : ((b.live visit.before).columns visit.table.name).Pairwise
      (·.position ≠ ·.position)) :
    let left := (reconcileOrSkip policy visit.table).perform responder visit.report visit.before
    visit.Leaves b policy ((b.live visit.before).columns visit.table.name) left.1.2 left.2 := by
  have hhas := ShadowStore.hasTable_iff.2 ⟨visit.table, htable, rfl⟩
  obtain ⟨hskipped, hcases⟩ := visit.cases b policy h hhas
  refine ⟨visit.wellKeyed_left b policy h, ?_, fun id hne => visit.alike b policy h htable hne,
    hskipped⟩
  change Columns.Outcome policy _ visit.table _ _ (b.store (visit.left policy responder))
  rcases hcases with ⟨hfailure, hstore⟩ | ⟨call, error, few, hfailure, hfew, hread, hstore⟩
  · rw [hfailure, hstore]
    exact Columns.renewed_applyAll_plan h policy htable hlives
  · have honly := (Columns.leaves_steps h hhas _).onlyFew few hfew
    rw [hfailure, hstore]
    refine ⟨honly.tables.symm ▸ htable, fun hnot => ?_⟩
    rw [hread hnot]
    rfl

/-! ## All visits -/

/-- Tables that are due to be visited: they are tracked, as they were listed. -/
structure Due (tables : List TrackedTable) (store : ShadowStore) : Prop where
  keyed : store.WellKeyed
  tracked : ∀ table ∈ tables, table ∈ store.tables
  ids : tables.Pairwise (·.tableId ≠ ·.tableId)

theorem Due.ready {store : ShadowStore} (h : Due tables store) : Ready tables store :=
  ⟨h.keyed, fun table htable => ShadowStore.hasTable_iff.2 ⟨table, h.tracked table htable, rfl⟩⟩

/-- A visit leaves the rows of the tables still to be visited as they were listed. -/
theorem Due.left (h : Due (table :: tables) (b.store state)) (policy : OrderPolicy)
    (report : SyncReport) :
    Due tables (b.store (Visit.left policy responder ⟨table, report, state⟩)) := by
  obtain ⟨hkeyed, htracked, hids⟩ := h
  rw [List.forall_mem_cons] at htracked
  rw [List.pairwise_cons] at hids
  refine ⟨Visit.wellKeyed_left b _ policy hkeyed, fun other hother => ?_, hids.2⟩
  have halike := Visit.alike b ⟨table, report, state⟩ policy hkeyed htracked.1
    (hids.1 other hother).symm
  exact (halike.row other rfl).2 (htracked.2 other hother)

/-- Visits leave every other table as it is. -/
theorem alike_reconcileEach (h : Due tables (b.store state)) (policy : OrderPolicy)
    (report : SyncReport) {id : TableId} (hid : ∀ table ∈ tables, id ≠ table.tableId) :
    ShadowStore.Alike id (b.store state)
      (b.store ((reconcileEach policy tables).perform responder report state).2) := by
  induction tables generalizing state report with
  | nil => exact .refl id _
  | cons table tables ih =>
    rw [List.forall_mem_cons] at hid
    rw [(reconcileEach_cons policy responder table tables report state).1]
    exact (Visit.alike b ⟨table, report, state⟩ policy h.keyed (h.tracked _ List.mem_cons_self)
      hid.1).trans (ih (h.left policy report) _ hid.2)

/-- A visit among others, which lead from one store to another: its table is as it was
    before the first one, and stays as the visit leaves it. -/
structure Visit.Stands (b : Backing responder) (policy : OrderPolicy) (first last : ShadowStore)
    (visit : Visit σ) : Prop where
  keyed : (b.store visit.before).WellKeyed
  tracked : visit.table ∈ (b.store visit.before).tables
  before : ShadowStore.Alike visit.table.tableId first (b.store visit.before)
  after : ShadowStore.Alike visit.table.tableId (b.store (visit.left policy responder)) last

theorem stands_visits (h : Due tables (b.store state)) (policy : OrderPolicy)
    (report : SyncReport) :
    ∀ visit ∈ visits policy responder tables report state, visit.Stands b policy (b.store state)
      (b.store ((reconcileEach policy tables).perform responder report state).2) := by
  induction tables generalizing state report with
  | nil => exact fun _ hvisit => absurd hvisit List.not_mem_nil
  | cons table tables ih =>
    have hids := (List.pairwise_cons.1 h.ids).1
    have htracked := h.tracked _ List.mem_cons_self
    rw [(reconcileEach_cons policy responder table tables report state).1, visits,
      List.forall_mem_cons]
    -- Neither do the later visits touch this table, nor does this visit touch theirs.
    refine ⟨⟨h.keyed, htracked, .refl _ _, ?_⟩, fun visit hvisit => ?_⟩
    · exact alike_reconcileEach (h.left policy report) policy _ hids
    · obtain ⟨hkeyed, hrow, hbefore, hafter⟩ := ih (h.left policy report) _ visit hvisit
      have hother := List.mem_map_of_mem (f := Visit.table) hvisit
      rw [map_table_visits] at hother
      exact ⟨hkeyed, hrow, (Visit.alike b ⟨table, report, state⟩ policy h.keyed htracked
        (hids _ hother).symm).trans hbefore, hafter⟩

/-- The tables that are left out are those for which a call failed. -/
theorem tablesSkipped_reconcileEach (h : Due tables (b.store state)) (policy : OrderPolicy)
    (report : SyncReport) :
    ((reconcileEach policy tables).perform responder report state).1.2.tablesSkipped =
      report.tablesSkipped ++
        (visits policy responder tables report state).filterMap (·.skipped? policy responder) := by
  induction tables generalizing state report with
  | nil => exact (List.append_nil _).symm
  | cons table tables ih =>
    have hskipped := (Visit.cases b ⟨table, report, state⟩ policy h.keyed
      (h.ready.2 _ List.mem_cons_self)).1
    rw [(reconcileEach_cons policy responder table tables report state).1, visits]
    refine (ih (h.left policy report) _).trans ?_
    rw [hskipped, List.append_assoc]
    congr 1
    cases hvisit : Visit.skipped? policy responder ⟨table, report, state⟩ with
    | none => rw [List.filterMap_cons_none hvisit]; rfl
    | some table => rw [List.filterMap_cons_some hvisit]; rfl

/-- What holds throughout each visit if it holds when the visit begins, holds throughout
    all of them. -/
theorem throughout_reconcileEach {p : σ → Prop} (h : p state) (report : SyncReport)
    (hvisit : ∀ visit ∈ visits policy responder tables report state, p visit.before →
      (Columns.reconcile policy visit.table).Throughout responder p visit.report visit.before) :
    (∀ visit ∈ visits policy responder tables report state, p visit.before) ∧
      (reconcileEach policy tables).Throughout responder p report state := by
  induction tables generalizing state report with
  | nil => exact ⟨fun _ hvisit => absurd hvisit List.not_mem_nil, h⟩
  | cons table tables ih =>
    rw [visits, List.forall_mem_cons] at hvisit
    have hfirst := throughout_reconcileOrSkip (hvisit.1 h)
    obtain ⟨hbefore, hrest⟩ := ih hfirst.last _ hvisit.2
    rw [visits, List.forall_mem_cons, reconcileEach, SyncTask.throughout_bind]
    refine ⟨⟨h, hbefore⟩, hfirst, ?_⟩
    have hok := reconcileOrSkip_isOk policy responder table report state
    rcases hrun : (reconcileOrSkip policy table).perform responder report state with
      ⟨⟨error | _, report'⟩, later⟩
    · exact trivial
    · rw [hrun] at hrest
      exact hrest

/-- What the visits of tables come to. -/
structure VisitsLeave (b : Backing responder) (policy : OrderPolicy) (live : LiveView)
    (each : List (Visit σ)) (first last : SyncReport) (before after : ShadowStore) : Prop where
  outcome : ∀ visit ∈ each, Columns.Outcome policy (live.columns visit.table.name) visit.table
    (visit.failure? policy responder) before after
  alike : ∀ id, (∀ visit ∈ each, id ≠ visit.table.tableId) → ShadowStore.Alike id before after
  skipped : last.tablesSkipped =
    first.tablesSkipped ++ each.filterMap (·.skipped? policy responder)

theorem visitsLeave_visits (hsteady : b.Steady) (policy : OrderPolicy)
    (h : (b.store state).WellKeyed) (htables : ∀ table ∈ tables, table ∈ (b.store state).tables)
    (hids : tables.Pairwise (·.tableId ≠ ·.tableId))
    (hpositions : ∀ table, ((b.live state).columns table).Pairwise (·.position ≠ ·.position))
    (report : SyncReport) :
    let left := (reconcileEach policy tables).perform responder report state
    VisitsLeave b policy (b.live state) (visits policy responder tables report state) report
      left.1.2 (b.store state) (b.store left.2) := by
  have hdue : Due tables (b.store state) := ⟨h, htables, hids⟩
  refine ⟨fun visit hvisit => ?_, fun id hid => alike_reconcileEach hdue policy report ?_,
    tablesSkipped_reconcileEach hdue policy report⟩
  · have hstands := stands_visits hdue policy report visit hvisit
    have hlive : b.live visit.before = b.live state :=
      (throughout_reconcileEach (p := fun s => b.live s = b.live state) rfl report
        fun other _ hother => (hsteady.throughout _ other.before).imp
          fun _ hsame => hsame.trans hother).1 visit hvisit
    have hleaves := visit.leaves policy hstands.keyed hstands.tracked (hlive ▸ hpositions _)
    rw [hlive] at hleaves
    exact hleaves.outcome.of_alike hstands.before hstands.after
  · intro table htable
    rw [← map_table_visits policy responder tables report state] at htable
    obtain ⟨visit, hvisit, rfl⟩ := List.mem_map.1 htable
    exact hid visit hvisit

/-! ## The pass -/

/-- A call that fails while columns are reconciled stays with its table. If no call of the
    opening fails, the pass ends well. The tables that it leaves out are those for which
    some call failed, in the order of the listing, each with its name and the error. Of
    those, the row is as it was when the tables were listed, and so are the columns if
    they could not be listed; each other table is renewed. -/
theorem syncPass_isolates (b : Backing responder) (policy : OrderPolicy) (hsteady : b.Steady)
    (hreach : (b.store state).Reachable)
    (hpositions : ∀ table, ((b.live state).columns table).Pairwise (·.position ≠ ·.position))
    (hopening : Unfailing responder (opening.course responder {} state)) :
    let listed := b.store (opening.perform responder {} state).2
    let each := passVisits policy responder state
    ∃ report later, (syncPass policy).perform responder state = (.ok report, later) ∧
      (syncPass policy).course responder state =
        opening.course responder {} state ++ each.flatMap (·.calls policy responder) ∧
      each.map (·.table) = listed.tables ∧
      (b.store later).tables.map (·.identity) = listed.tables.map (·.identity) ∧
      report.tablesSkipped = each.filterMap (·.skipped? policy responder) ∧
      ∀ visit ∈ each, Columns.Outcome policy ((b.live state).columns visit.table.name)
        visit.table (visit.failure? policy responder) listed (b.store later) := by
  have hkeyed := hreach.wellKeyed
  rcases follows_opening hkeyed {} with ⟨middle, hpassage, hrun⟩ |
    ⟨turns, few, call, middle, error, _, hbreaks⟩
  · have hmiddle : (b.store middle).WellKeyed := hpassage.store_eq ▸ hkeyed.applyAll _
    have hlive := hpassage.live_eq hsteady
    rw [← hpassage.store_eq] at hrun
    obtain ⟨hperform, hcourse⟩ := syncPass_of_opening_ok policy hrun
    have hskipped := tablesSkipped_countingAll {} (Registry.plan (b.live state).tables
      (b.store state))
    generalize SyncReport.countingAll {} (Registry.plan (b.live state).tables (b.store state)) =
      first at hrun hperform hcourse hskipped
    have hleave := visitsLeave_visits hsteady policy hmiddle (fun _ htable => htable)
      (hmiddle.tables.imp Int.ne_of_lt) (hlive ▸ hpositions) first
    have hidentity := map_identity_reconcileEach b policy (b.store middle).tables first middle
    obtain ⟨report, later, heach, _⟩ := reconcileEach_ok policy (ready_tables hmiddle) first
    rw [heach] at hleave hidentity hperform
    rw [passVisits, hrun]
    refine ⟨report, later, hperform, ?_, map_table_visits _ _ _ _ _, hidentity, ?_,
      hlive ▸ hleave.outcome⟩
    · rw [hcourse, course_reconcileEach]
    · rw [hleave.skipped, hskipped]
      rfl
  -- The call at which the opening would break off is one of its calls.
  · have hlast : ⟨call, middle⟩ ∈ opening.course responder {} state := by
      rw [hbreaks.course_eq]
      exact List.mem_append_right _ (List.mem_singleton_self _)
    obtain ⟨reply, hreply⟩ := hopening _ hlast
    exact absurd (hbreaks.struck.1.symm.trans hreply) (by simp)

/-- Three tables, the columns of which are all out of date. Those of the second cannot be
    listed, and the layout of the third cannot be saved. -/
def hampered : World where
  live.entries := [⟨⟨1, "a"⟩, [⟨1, "id", "int", false, none, true, none⟩]⟩,
    ⟨⟨2, "b"⟩, [⟨1, "id", "int", false, none, true, none⟩]⟩,
    ⟨⟨3, "c"⟩, [⟨1, "id", "int", false, none, true, none⟩]⟩]
  store := ShadowStore.applyAll {} [.insertTable "a" 1, .insertTable "b" 2, .insertTable "c" 3,
    .insertColumn 1 ⟨1, "key", "int", false, none, true, none⟩]
  faults := [⟨.liveColumns, 1, 1, .catalog (.cancelled "listing")⟩,
    ⟨.saveLayout, 1, 1, .catalog .lockPoisoned⟩]

theorem syncPass_isolates_hampered :
    ∃ report later,
      (syncPass DisplayOrder.merge).perform World.respond hampered = (.ok report, later) ∧
      report.tablesSkipped = [⟨"b", "Catalog error: Operation cancelled: listing"⟩,
        ⟨"c", "Catalog error: Catalog lock poisoned"⟩] ∧
      ∀ visited ∈ [(TrackedTable.new 1 "a" 1, none),
          (.new 2 "b" 2, some (.liveColumns "b", .catalog (.cancelled "listing"))),
          (.new 3 "c" 3, some (.write (.saveLayout 3 (.ofList [2]) [2]), .catalog .lockPoisoned))],
        Columns.Outcome DisplayOrder.merge (hampered.view.columns visited.1.name) visited.1
          visited.2 hampered.store later.store := by
  have hreach : (World.backing.store hampered).Reachable := ShadowStore.Reachable.empty.applyAll _
  have hpositions (table : String) :
      ((World.backing.live hampered).columns table).Pairwise (·.position ≠ ·.position) :=
    (World.view_distinct (by decide) (by decide)).positions table
  have hopening : Unfailing World.respond (opening.course World.respond {} hampered) :=
    unfailing_of_all (by decide +kernel)
  obtain ⟨report, later, hperform, _, _, _, hskipped, houtcome⟩ :=
    syncPass_isolates World.backing DisplayOrder.merge World.steady hreach hpositions hopening
  -- The opening finds nothing to change.
  have hlisted : (opening.perform World.respond {} hampered).2.store = hampered.store := by
    decide +kernel
  have hvisits : (passVisits DisplayOrder.merge World.respond hampered).map (fun visit =>
      (visit.table, visit.failure? DisplayOrder.merge World.respond)) =
      [(.new 1 "a" 1, none),
        (.new 2 "b" 2, some (.liveColumns "b", .catalog (.cancelled "listing"))),
        (.new 3 "c" 3, some (.write (.saveLayout 3 (.ofList [2]) [2]), .catalog .lockPoisoned))] := by
    decide +kernel
  refine ⟨report, later, hperform, hskipped.trans (by decide +kernel), fun visited hvisited => ?_⟩
  rw [← hvisits] at hvisited
  obtain ⟨visit, hvisit, rfl⟩ := List.mem_map.1 hvisited
  have hvisited := houtcome visit hvisit
  change Columns.Outcome _ _ _ _ (opening.perform World.respond {} hampered).2.store _ at hvisited
  rw [hlisted] at hvisited
  exact hvisited

end ShadowCatalog
