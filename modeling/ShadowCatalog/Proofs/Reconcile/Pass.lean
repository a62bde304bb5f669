import ShadowCatalog.Proofs.Reconcile.Columns
import ShadowCatalog.Proofs.Reconcile.Settled
import ShadowCatalog.Reconcile.Pass

/-!
# What a pass does

A pass has two parts:

* its *opening* reconciles the tables and lists those that are then tracked. It
  follows a plan (`follows_opening`), and a call that is struck in it ends the pass
  in the error of that call;
* then the columns of each table listed are reconciled, each by a plan of its own.
  A call that is struck there ends the plan of that table only, which is left out
  (`reconcileOrSkip_cases`), and the pass ends well in any case.

If no table is left out, the pass has made all its plans (`eachPlan`). The calls of
the first part are other calls than those of the second (`Call.ofRegistry`).
-/

namespace ShadowCatalog

/-- What a tracked table is, apart from its presentation. -/
def TrackedTable.identity (table : TrackedTable) : TableId × String × PhysicalId :=
  (table.tableId, table.name, table.physicalId)

/-- A change of which tables are tracked, or as what. -/
def Write.ofRegistry : Write → Bool
  | .insertTable .. => true
  | .renameTable .. => true
  | .updatePhysicalId .. => true
  | .deleteTable _ => true
  | _ => false

/-- A call of the opening of a pass. -/
def Call.ofRegistry : Call → Bool
  | .liveTables => true
  | .trackedTables => true
  | .write w => w.ofRegistry
  | _ => false

namespace ShadowStore

variable {store : ShadowStore}

/-- A change of columns or of a presentation leaves the same tables tracked. -/
theorem map_identity_apply {w : Write} (h : w.ofRegistry = false) :
    (store.apply w).tables.map (·.identity) = store.tables.map (·.identity) := by
  have hchange {table : TableId} {change : TrackedTable → TrackedTable}
      (hsame : ∀ row, (change row).identity = row.identity) :
      (changeRow table change store.tables).map (·.identity) =
        store.tables.map (·.identity) := by
    rw [changeRow, List.map_map]
    refine List.map_congr_left ?_
    intro row _
    rw [Function.comp_apply]
    split
    · exact hsame row
    · rfl
  cases hw : store.write w with
  | error cause => rw [apply, hw]
  | ok answer =>
    obtain ⟨reply, later⟩ := answer
    rw [apply_of_write hw]
    cases w with
    | saveLayout table columnIds displayOrder =>
      obtain ⟨_, rfl⟩ := of_changeTable_eq_ok hw
      exact hchange fun _ => rfl
    | setLabelColumn table label =>
      obtain ⟨_, rfl⟩ := of_changeTable_eq_ok hw
      exact hchange fun _ => rfl
    | insertColumn table column =>
      obtain ⟨_, _, rfl⟩ := of_insertColumn_eq_ok hw
      rfl
    | updateColumn column =>
      obtain ⟨_, rfl⟩ := of_updateColumn_eq_ok hw
      rfl
    | deleteColumn column =>
      cases hw
      rfl
    | _ => cases h

theorem hasTable_iff_mem_identity {table : TableId} :
    store.hasTable table = true ↔ table ∈ (store.tables.map (·.identity)).map Prod.fst := by
  rw [hasTable_iff, List.map_map, List.mem_map]
  rfl

theorem hasTable_applyAll {ws : List Write} (h : ∀ w ∈ ws, w.ofRegistry = false)
    (table : TableId) : (store.applyAll ws).hasTable table = store.hasTable table := by
  induction ws generalizing store with
  | nil => rfl
  | cons w ws ih =>
    rw [List.forall_mem_cons] at h
    rw [applyAll_cons, ih h.2, Bool.eq_iff_iff, hasTable_iff_mem_identity,
      hasTable_iff_mem_identity, map_identity_apply h.1]

end ShadowStore

theorem Registry.ofRegistry_of_mem_planOf {tables : List LiveTable} {decisions : List Decision}
    {store : ShadowStore}
    (h : ∀ decide ∈ decisions, ∀ rows, ∀ w ∈ decide tables rows, w.ofRegistry = true) :
    ∀ w ∈ planOf tables decisions store, w.ofRegistry = true := by
  induction decisions generalizing store with
  | nil => exact fun _ hw => absurd hw List.not_mem_nil
  | cons decide later ih =>
    rw [List.forall_mem_cons] at h
    intro w hw
    rcases List.mem_append.1 hw with hw | hw
    · exact h.1 _ w hw
    · exact ih h.2 w hw

/-- The steps of the registry change which tables are tracked, and as what. -/
theorem Registry.ofRegistry_of_mem_steps (tables : List LiveTable) :
    ∀ decide ∈ steps, ∀ rows, ∀ w ∈ decide tables rows, w.ofRegistry = true := by
  simp only [steps, List.forall_mem_cons]
  refine ⟨fun rows w hw => ?_, fun rows w hw => ?_, fun rows w hw => ?_, fun rows w hw => ?_, ?_⟩
  · obtain ⟨_, _, _, _, rfl⟩ := of_mem_renames hw
    rfl
  · obtain ⟨_, _, _, _, rfl⟩ := of_mem_refreshesFrom hw
    rfl
  · obtain ⟨_, _, rfl⟩ := of_mem_removals hw
    rfl
  · obtain ⟨_, _, rfl⟩ := of_mem_insertions hw
    rfl
  · simp

theorem Registry.ofRegistry_of_mem_plan {tables : List LiveTable} {store : ShadowStore} :
    ∀ w ∈ plan tables store, w.ofRegistry = true :=
  ofRegistry_of_mem_planOf (ofRegistry_of_mem_steps tables)

/-- The steps of the registry ask only for the tracked tables, and for such changes. -/
theorem Registry.asks_inTurn {tables : List LiveTable} {decisions : List Decision}
    (h : ∀ decide ∈ decisions, ∀ rows, ∀ w ∈ decide tables rows, w.ofRegistry = true) :
    SyncTask.Asks (·.ofRegistry = true) (inTurn tables decisions) := by
  have hwrites {ws : List Write} (hws : ∀ w ∈ ws, w.ofRegistry = true) :
      SyncTask.Asks (·.ofRegistry = true) (writeAll ws) := by
    induction ws with
    | nil => exact .pure _
    | cons w ws ih =>
      rw [List.forall_mem_cons] at hws
      exact .bind (.write hws.1) fun _ => ih hws.2
  induction decisions with
  | nil => exact .pure _
  | cons decide later ih =>
    rw [List.forall_mem_cons] at h
    exact .bind (.bind (.ask rfl) fun rows => hwrites (h.1 rows)) fun _ => ih h.2

/-- The changes that reconcile columns leave the same tables tracked. -/
theorem Columns.ofRegistry_of_mem_plan {policy : OrderPolicy} {live : List LiveColumn}
    {table : TrackedTable} {store : ShadowStore} :
    ∀ w ∈ Columns.plan policy live table store, w.ofRegistry = false := by
  intro w hw
  rcases List.mem_append.1 hw with hw | hw
  · obtain ⟨step, _, hstep⟩ := List.mem_filterMap.1 hw
    cases step with
    | keep id => cases hstep
    | update column => cases hstep; rfl
    | insert column => cases hstep; rfl
    | delete id => cases hstep; rfl
  · unfold Columns.layoutWrites at hw
    dsimp only at hw
    split at hw
    · rw [List.mem_singleton.1 hw]; rfl
    · exact absurd hw List.not_mem_nil

/-- The opening of a pass. Gives the tables that are tracked after it. -/
def opening : SyncTask (List TrackedTable) := do
  let live ← SyncTask.ask .liveTables
  Registry.inTurn live Registry.steps
  SyncTask.ask .trackedTables

/-- Only calls of the registry are asked. -/
theorem asks_opening : SyncTask.Asks (·.ofRegistry = true) opening :=
  .bind (.ask rfl) fun live =>
    .bind (Registry.asks_inTurn (Registry.ofRegistry_of_mem_steps live)) fun _ => .ask rfl

variable {σ : Type} {responder : Responder σ} {b : Backing responder} {state later : σ}
  {policy : OrderPolicy} {report report' : SyncReport} {tables : List TrackedTable}

/-! ## The parts of a pass -/

theorem passStretch_eq (policy : OrderPolicy) :
    passStretch policy = opening >>= reconcileEach policy := by
  simp only [passStretch, opening, bind_assoc]

theorem perform_syncPass (policy : OrderPolicy) (responder : Responder σ) (state : σ) :
    (syncPass policy).perform responder state =
      (((passStretch policy).perform responder {} state).1.1.map fun _ =>
          ((passStretch policy).perform responder {} state).1.2,
        ((passStretch policy).perform responder {} state).2) :=
  Program.run_bind responder _ _ state

theorem course_syncPass (policy : OrderPolicy) (responder : Responder σ) (state : σ) :
    (syncPass policy).course responder state = (passStretch policy).course responder {} state :=
  (Program.course_bind responder _ _ state).trans (List.append_nil _)

/-- A pass ends in the error of its opening, if that ends in one. -/
theorem syncPass_of_opening_error (policy : OrderPolicy) {error : Error}
    (h : opening.perform responder {} state = ((.error error, report), later)) :
    (syncPass policy).perform responder state = (.error error, later) ∧
      (syncPass policy).course responder state = opening.course responder {} state := by
  rw [perform_syncPass, course_syncPass, passStretch_eq, SyncTask.perform_bind,
    SyncTask.course_bind, h]
  exact ⟨rfl, List.append_nil _⟩

theorem syncPass_of_opening_ok (policy : OrderPolicy) {middle : σ}
    (h : opening.perform responder {} state = ((.ok tables, report), middle)) :
    (syncPass policy).perform responder state =
        (((reconcileEach policy tables).perform responder report middle).1.1.map fun _ =>
            ((reconcileEach policy tables).perform responder report middle).1.2,
          ((reconcileEach policy tables).perform responder report middle).2) ∧
      (syncPass policy).course responder state = opening.course responder {} state ++
        (reconcileEach policy tables).course responder report middle := by
  rw [perform_syncPass, course_syncPass, passStretch_eq, SyncTask.perform_bind,
    SyncTask.course_bind, h]
  exact ⟨rfl, rfl⟩

/-! ## The opening -/

/-- The opening follows the plan of the steps of the registry. -/
theorem follows_opening (h : (b.store state).WellKeyed) :
    Follows b opening state (Registry.plan (b.live state).tables (b.store state))
      ((b.store state).applyAll (Registry.plan (b.live state).tables (b.store state))).tables := by
  -- The listings change nothing: the steps begin where the opening does, and the
  -- tables are listed as the steps leave them.
  have hlive : Follows b (SyncTask.ask .liveTables) state [] (b.live state).tables :=
    .ask (fun _ hw => by cases hw) rfl
  refine hlive.bind ?_
  intro first hfirst
  rw [ShadowStore.applyAll_nil] at hfirst
  have hsteps : Follows b (Registry.inTurn (b.live state).tables Registry.steps) first
      (Registry.plan (b.live state).tables (b.store first)) () :=
    Registry.follows_inTurn (hfirst ▸ h) _
  rw [hfirst] at hsteps
  refine hsteps.bind_quiet ?_
  intro second hsecond
  rw [hfirst] at hsecond
  rw [← hsecond]
  exact .ask (fun _ hw => by cases hw) rfl

/-! ## Tables one after the other -/

/-- Whatever fails, a table is reconciled or left out. -/
theorem reconcileOrSkip_isOk (policy : OrderPolicy) (responder : Responder σ)
    (table : TrackedTable) (report : SyncReport) (state : σ) :
    ((reconcileOrSkip policy table).perform responder report state).1.1 = .ok () := by
  rw [reconcileOrSkip, SyncTask.perform_tryCatch]
  rcases (Columns.reconcile policy table).perform responder report state with
    ⟨⟨error | _, report⟩, later⟩
  · rfl
  · rfl

/-- To leave a table out asks for nothing. -/
theorem course_reconcileOrSkip (policy : OrderPolicy) (responder : Responder σ)
    (table : TrackedTable) (report : SyncReport) (state : σ) :
    (reconcileOrSkip policy table).course responder report state =
        (Columns.reconcile policy table).course responder report state ∧
      ((reconcileOrSkip policy table).perform responder report state).2 =
        ((Columns.reconcile policy table).perform responder report state).2 := by
  rw [reconcileOrSkip, SyncTask.course_tryCatch, SyncTask.perform_tryCatch]
  rcases (Columns.reconcile policy table).perform responder report state with
    ⟨⟨error | _, report⟩, later⟩
  · exact ⟨List.append_nil _, rfl⟩
  · exact ⟨List.append_nil _, rfl⟩

/-- What holds throughout the reconciliation of a table holds whether the table is left out or
    not. -/
theorem throughout_reconcileOrSkip {p : σ → Prop} {table : TrackedTable}
    (h : (Columns.reconcile policy table).Throughout responder p report state) :
    (reconcileOrSkip policy table).Throughout responder p report state := by
  refine SyncTask.throughout_tryCatch.2 ⟨h, ?_⟩
  have hlast := h.last
  rcases hrun : (Columns.reconcile policy table).perform responder report state with
    ⟨⟨error | _, report'⟩, later⟩
  · rw [hrun] at hlast
    exact hlast
  · exact trivial

/-- The tables are reconciled one after the other, whatever fails. -/
theorem reconcileEach_cons (policy : OrderPolicy) (responder : Responder σ)
    (table : TrackedTable) (tables : List TrackedTable) (report : SyncReport) (state : σ) :
    let left := (reconcileOrSkip policy table).perform responder report state
    (reconcileEach policy (table :: tables)).perform responder report state =
        (reconcileEach policy tables).perform responder left.1.2 left.2 ∧
      (reconcileEach policy (table :: tables)).course responder report state =
        (Columns.reconcile policy table).course responder report state ++
          (reconcileEach policy tables).course responder left.1.2 left.2 := by
  have hok := reconcileOrSkip_isOk policy responder table report state
  rw [reconcileEach, SyncTask.perform_bind, SyncTask.course_bind,
    (course_reconcileOrSkip policy responder table report state).1]
  rcases hrun : (reconcileOrSkip policy table).perform responder report state with
    ⟨⟨error | _, report'⟩, later⟩
  · rw [hrun] at hok
    cases hok
  · exact ⟨rfl, rfl⟩

/-- Only calls are asked that are not of the registry. -/
theorem asks_reconcileEach (policy : OrderPolicy) (tables : List TrackedTable) :
    SyncTask.Asks (·.ofRegistry = false) (reconcileEach policy tables) := by
  have hlayout (table : TrackedTable) (columnIds : IdSet) :
      SyncTask.Asks (·.ofRegistry = false) (Columns.saveLayout policy table columnIds) := by
    unfold Columns.saveLayout
    dsimp only
    split
    · exact .write rfl
    · exact .pure _
  induction tables with
  | nil => exact .pure _
  | cons table tables ih =>
    refine .bind (.tryCatch ?_ fun _ => .of_modify _) fun _ => ih
    exact .bind (.ask rfl) fun live => .bind (.ask rfl) fun rows =>
      .bind (Columns.asks_perform (fun _ => rfl) (fun _ => rfl) (fun _ => rfl) _) fun ids =>
        hlayout table _

/-- Whichever calls fail while the columns are reconciled, the registry stays as it
    is. -/
theorem map_identity_reconcileEach (b : Backing responder) (policy : OrderPolicy)
    (tables : List TrackedTable) (report : SyncReport) (state : σ) :
    (b.store ((reconcileEach policy tables).perform responder report state).2).tables.map
        (·.identity) = (b.store state).tables.map (·.identity) := by
  have hthroughout := b.throughout_of_asks
    (p := fun store => store.tables.map (·.identity) = (b.store state).tables.map (·.identity))
    (asks_reconcileEach policy tables report)
    (fun w hw store hsame => (ShadowStore.map_identity_apply hw).trans hsame) rfl
  exact hthroughout.last

/-- The columns of a table are reconciled as planned, or the table is left out after
    the first few changes of the plan. -/
theorem reconcileOrSkip_cases {table : TrackedTable} {plan : List Write}
    (h : Follows b (Columns.reconcile policy table) state plan ()) (report : SyncReport) :
    (∃ later, b.Passage state ((reconcileOrSkip policy table).course responder report state) plan
        later ∧
      (reconcileOrSkip policy table).perform responder report state =
        ((.ok (), report.countingAll plan), later)) ∨
    ∃ few cause turn later, few <+: plan ∧ b.Struck turn cause ∧
      b.store later = (b.store state).applyAll few ∧
      (reconcileOrSkip policy table).perform responder report state =
        ((.ok (), (report.countingAll few).skipping table.name cause), later) := by
  rw [reconcileOrSkip, SyncTask.perform_tryCatch, SyncTask.course_tryCatch]
  rcases h report with ⟨later, hpassage, hrun⟩ |
    ⟨turns, few, call, middle, error, hfew, hpassage, hstruck, hstore, hcourse, hrun⟩
  · rw [hrun]
    exact .inl ⟨later, (List.append_nil _).symm ▸ hpassage, rfl⟩
  · rw [hrun]
    exact .inr ⟨few, error, _, _, hfew, hstruck, hstore.trans hpassage.store_eq, rfl⟩

/-- Whether a table is reconciled or left out, the changes are the first few of the plan,
    and all that happened to the store. -/
theorem changes_reconcileOrSkip {table : TrackedTable} {plan : List Write}
    (h : Follows b (Columns.reconcile policy table) state plan ()) (report : SyncReport) :
    let made := ((Columns.reconcile policy table).course responder report state).filterMap
      (·.change? responder)
    made <+: plan ∧ b.store ((reconcileOrSkip policy table).perform responder report state).2 =
      (b.store state).applyAll made := by
  refine ⟨h.changes_isPrefix report, ?_⟩
  rw [(course_reconcileOrSkip policy responder table report state).2]
  exact (b.applyAll_changes ((Columns.reconcile policy table).run report) state).2

/-- The changes that reconcile the columns of tables, one after the other. -/
def eachPlan (policy : OrderPolicy) (live : LiveView) : List TrackedTable → ShadowStore → List Write
  | [], _ => []
  | table :: tables, store =>
    let first := Columns.plan policy (live.columns table.name) table store
    first ++ eachPlan policy live tables (store.applyAll first)

/-- Tables that can be reconciled: they are tracked. -/
def Ready (tables : List TrackedTable) (store : ShadowStore) : Prop :=
  store.WellKeyed ∧ ∀ table ∈ tables, store.hasTable table.tableId = true

/-- Tables can still be reconciled after part of a plan for one of them. -/
theorem Ready.applyAll {store : ShadowStore} {table : TrackedTable}
    (h : Ready (table :: tables) store) {lives : List LiveColumn} {few : List Write}
    (hfew : few <+: Columns.plan policy lives table store) :
    Ready tables (store.applyAll few) := by
  refine ⟨h.1.applyAll few, fun other hother => ?_⟩
  rw [ShadowStore.hasTable_applyAll fun w hw =>
    Columns.ofRegistry_of_mem_plan w (hfew.subset hw)]
  exact h.2 other (List.mem_cons_of_mem _ hother)

theorem Ready.follows {table : TrackedTable} (h : Ready (table :: tables) (b.store state))
    (policy : OrderPolicy) :
    Follows b (Columns.reconcile policy table) state
      (Columns.plan policy ((b.live state).columns table.name) table (b.store state)) () :=
  Columns.follows_reconcile h.1 policy (h.2 table List.mem_cons_self)

/-- The tables that were tracked when they were listed are. -/
theorem ready_tables {store : ShadowStore} (h : store.WellKeyed) : Ready store.tables store :=
  ⟨h, fun table htable => ShadowStore.hasTable_iff.2 ⟨table, htable, rfl⟩⟩

theorem tablesSkipped_countingAll (report : SyncReport) (ws : List Write) :
    (report.countingAll ws).tablesSkipped = report.tablesSkipped := by
  induction ws generalizing report with
  | nil => rfl
  | cons w ws ih => exact (ih _).trans (by cases w <;> rfl)

/-- The second part of a pass ends well, and no table that was left out is forgotten. -/
theorem reconcileEach_ok (policy : OrderPolicy) (h : Ready tables (b.store state))
    (report : SyncReport) :
    ∃ report' later, (reconcileEach policy tables).perform responder report state =
        ((.ok (), report'), later) ∧
      report.tablesSkipped.length ≤ report'.tablesSkipped.length := by
  induction tables generalizing state report with
  | nil => exact ⟨report, state, rfl, Nat.le_refl _⟩
  | cons table tables ih =>
    rw [reconcileEach, SyncTask.perform_bind]
    rcases reconcileOrSkip_cases (h.follows policy) report with ⟨middle, hpassage, hrun⟩ |
      ⟨few, cause, turn, middle, hfew, _, hstore, hrun⟩
    · rw [hrun]
      obtain ⟨report', later, hrest, hle⟩ := ih
        (by rw [hpassage.store_eq]; exact h.applyAll List.prefix_rfl) (report.countingAll _)
      rw [tablesSkipped_countingAll] at hle
      exact ⟨report', later, hrest, hle⟩
    · rw [hrun]
      obtain ⟨report', later, hrest, hle⟩ := ih (by rw [hstore]; exact h.applyAll hfew)
        ((report.countingAll few).skipping table.name cause)
      refine ⟨report', later, hrest, Nat.le_trans ?_ hle⟩
      rw [SyncReport.skipping, List.length_append, tablesSkipped_countingAll]
      exact Nat.le_add_right _ _

/-- If no table is left out, the tables are reconciled as planned. -/
theorem passage_reconcileEach (hsteady : b.Steady) (h : Ready tables (b.store state))
    (hdone : (reconcileEach policy tables).perform responder report state =
      ((.ok (), report'), later))
    (hskipped : report'.tablesSkipped = report.tablesSkipped) :
    report' = report.countingAll (eachPlan policy (b.live state) tables (b.store state)) ∧
      b.Passage state ((reconcileEach policy tables).course responder report state)
        (eachPlan policy (b.live state) tables (b.store state)) later := by
  induction tables generalizing state report with
  | nil =>
    cases hdone
    exact ⟨rfl, .nil _⟩
  | cons table tables ih =>
    rw [reconcileEach, SyncTask.perform_bind] at hdone
    rw [reconcileEach, SyncTask.course_bind]
    rcases reconcileOrSkip_cases (h.follows policy) report with ⟨middle, hpassage, hrun⟩ |
      ⟨few, cause, turn, middle, hfew, _, hstore, hrun⟩
    · rw [hrun] at hdone ⊢
      have hready : Ready tables (b.store middle) := by
        rw [hpassage.store_eq]; exact h.applyAll List.prefix_rfl
      have hrest := ih hready hdone (hskipped.trans (tablesSkipped_countingAll _ _).symm)
      rw [hpassage.store_eq, hpassage.live_eq hsteady] at hrest
      refine ⟨?_, hpassage.append hrest.2⟩
      rw [hrest.1, eachPlan, SyncReport.countingAll_append]
    · rw [hrun] at hdone
      -- A table was left out, and so it is in the report to the end.
      have hready : Ready tables (b.store middle) := by rw [hstore]; exact h.applyAll hfew
      obtain ⟨report'', later', hrest, hle⟩ :=
        reconcileEach_ok policy hready ((report.countingAll few).skipping table.name cause)
      dsimp only at hdone
      rw [hrest] at hdone
      cases hdone
      rw [hskipped, SyncReport.skipping, List.length_append, tablesSkipped_countingAll] at hle
      exact absurd hle (by simp)

/-- Where no call is struck, no table is left out. -/
theorem reconcileEach_of_not_struck (policy : OrderPolicy)
    (hstruck : ∀ turn error, ¬b.Struck turn error)
    (h : Ready tables (b.store state)) (report : SyncReport) :
    ∃ report' later, (reconcileEach policy tables).perform responder report state =
        ((.ok (), report'), later) ∧
      report'.tablesSkipped = report.tablesSkipped := by
  induction tables generalizing state report with
  | nil => exact ⟨report, state, rfl, rfl⟩
  | cons table tables ih =>
    rw [reconcileEach, SyncTask.perform_bind]
    rcases reconcileOrSkip_cases (h.follows policy) report with ⟨middle, hpassage, hrun⟩ |
      ⟨few, cause, turn, middle, _, hturn, _⟩
    · rw [hrun]
      obtain ⟨report', later, hrest, heq⟩ := ih
        (by rw [hpassage.store_eq]; exact h.applyAll List.prefix_rfl) (report.countingAll _)
      exact ⟨report', later, hrest, heq.trans (tablesSkipped_countingAll _ _)⟩
    · exact absurd hturn (hstruck turn cause)

/-! ## The pass as a whole -/

/-- The changes of a pass in which no call is struck. -/
def passPlan (policy : OrderPolicy) (live : LiveView) (store : ShadowStore) : List Write :=
  let first := Registry.plan live.tables store
  first ++ eachPlan policy live (store.applyAll first).tables (store.applyAll first)

/-- A pass that leaves no table out has made its plans. -/
theorem passage_syncPass (hsteady : b.Steady) (h : (b.store state).WellKeyed)
    (hdone : (syncPass policy).perform responder state = (.ok report, later))
    (hskipped : report.tablesSkipped = []) :
    report = SyncReport.countingAll {} (passPlan policy (b.live state) (b.store state)) ∧
      b.Passage state ((syncPass policy).course responder state)
        (passPlan policy (b.live state) (b.store state)) later := by
  rcases follows_opening h {} with ⟨middle, hpassage, hrun⟩ |
    ⟨_, _, _, _, error, _, _, _, _, _, hrun⟩
  · obtain ⟨hperform, hcourse⟩ := syncPass_of_opening_ok policy hrun
    have hready : Ready (b.store middle).tables (b.store middle) :=
      ready_tables (by rw [hpassage.store_eq]; exact h.applyAll _)
    rw [← hpassage.store_eq] at hperform hcourse
    obtain ⟨report', later', heach, _⟩ := reconcileEach_ok policy hready
      (SyncReport.countingAll {} (Registry.plan (b.live state).tables (b.store state)))
    rw [hperform, heach] at hdone
    cases hdone
    obtain ⟨hreport, hrest⟩ := passage_reconcileEach hsteady hready heach
      (hskipped.trans (tablesSkipped_countingAll {} _).symm)
    rw [hpassage.live_eq hsteady, hpassage.store_eq] at hreport hrest
    rw [hcourse, hpassage.store_eq]
    refine ⟨?_, hpassage.append hrest⟩
    rw [hreport, passPlan, SyncReport.countingAll_append]
  · rw [(syncPass_of_opening_error policy hrun).1] at hdone
    cases hdone

/-- Where every call is answered, a pass leaves no table out and makes its plans. -/
theorem syncPass_respond (policy : OrderPolicy) (live : LiveView) {store : ShadowStore}
    (h : store.WellKeyed) :
    (syncPass policy).perform live.respond store =
        (.ok (SyncReport.countingAll {} (passPlan policy live store)),
          store.applyAll (passPlan policy live store)) ∧
      live.backing.Passage store ((syncPass policy).course live.respond store)
        (passPlan policy live store) (store.applyAll (passPlan policy live store)) := by
  let first := Registry.plan live.tables store
  have hopening : Follows live.backing opening store first (store.applyAll first).tables :=
    follows_opening h
  obtain ⟨hrun, hpassage⟩ := hopening.perform_eq {}
  have hready : Ready (store.applyAll first).tables
      (live.backing.store (store.applyAll first)) := ready_tables (h.applyAll first)
  obtain ⟨report, later, heach, hskipped⟩ := reconcileEach_of_not_struck policy live.not_struck
    hready (SyncReport.countingAll {} first)
  obtain ⟨hreport, hrest⟩ := passage_reconcileEach (fun _ _ => rfl) hready heach hskipped
  have hlater : later = store.applyAll (passPlan policy live store) :=
    hrest.store_eq.trans (ShadowStore.applyAll_append _ _).symm
  obtain ⟨hperform, hcourse⟩ := syncPass_of_opening_ok policy hrun
  rw [hperform, hcourse, heach, ← hlater]
  refine ⟨?_, hpassage.append hrest⟩
  rw [hreport, passPlan, SyncReport.countingAll_append]
  rfl

end ShadowCatalog
