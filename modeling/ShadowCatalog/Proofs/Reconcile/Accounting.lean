import ShadowCatalog.Proofs.Memory.Departure
import ShadowCatalog.Proofs.Memory.World
import ShadowCatalog.Proofs.Reconcile.Pass
import ShadowCatalog.Proofs.Reconcile.Succession

/-!
# What a pass reports

The counters of a report tell just what was changed, also where calls failed and tables
were left out after part of their changes (`syncPass_accounts`). This has two parts:

* each stretch of a pass *tells*: its report has one more change for each change of
  its course, however the stretch ends (`SyncTask.Tells`);
* a pass changes nothing for nothing: each change departs from the store at the
  beginning of the pass (`ShadowStore.Departs`), so that the changes show in the end.
  The registry is compared with the rows as they are listed anew at each step, but
  those have the ids, the physical ids and the layouts of the beginning where it
  matters (`Registry.known_of_mem`), and so have the columns of a table when the table
  is visited, as other visits leave them alone.
-/

namespace ShadowCatalog

variable {α β σ : Type} {responder : Responder σ} {b : Backing responder} {state later : σ}
  {policy : OrderPolicy} {report : SyncReport} {tables : List TrackedTable}
  {origin store : ShadowStore} {w : Write}

/-! ## Counters -/

namespace SyncReport

/-- The number of changes of a kind. -/
def count (report : SyncReport) : CallKind → Nat
  | .renameTable => report.tablesRenamed
  | .updatePhysicalId => report.tablesRefreshed
  | .deleteTable => report.tablesRemoved
  | .insertTable => report.tablesInserted
  | .insertColumn => report.columnsInserted
  | .updateColumn => report.columnsUpdated
  | .deleteColumn => report.columnsDeleted
  | .saveLayout => report.layoutsSaved
  | _ => 0

/-- The report without the tables left out. -/
def counters (report : SyncReport) : SyncReport := { report with tablesSkipped := [] }

theorem counters_counting (report : SyncReport) (w : Write) :
    (report.counting w).counters = report.counters.counting w := by
  cases w <;> rfl

theorem count_counting (report : SyncReport) (h : w.kind ≠ .setLabelColumn) (kind : CallKind) :
    (report.counting w).count kind = report.count kind + if w.kind = kind then 1 else 0 := by
  cases w with
  | setLabelColumn table label => exact absurd rfl h
  | _ => cases kind <;> rfl

theorem writes_counting (report : SyncReport) (h : w.kind ≠ .setLabelColumn) :
    (report.counting w).writes = report.writes + 1 := by
  cases w with
  | setLabelColumn table label => exact absurd rfl h
  | _ => simp only [counting, writes]; omega

/-- The counters after changes, each of which is of a kind that is counted. -/
theorem counts_countingAll (report : SyncReport) {ws : List Write}
    (h : ∀ w ∈ ws, w.kind ≠ .setLabelColumn) :
    (∀ kind, (report.countingAll ws).count kind =
        report.count kind + ws.countP fun w => w.kind = kind) ∧
      (report.countingAll ws).writes = report.writes + ws.length := by
  induction ws generalizing report with
  | nil => exact ⟨fun _ => rfl, rfl⟩
  | cons w ws ih =>
    rw [List.forall_mem_cons] at h
    obtain ⟨hcount, hwrites⟩ := ih (report.counting w) h.2
    refine ⟨fun kind => ?_, ?_⟩
    · refine (hcount kind).trans ?_
      simp only [count_counting report h.1, List.countP_cons, decide_eq_true_iff]
      omega
    · refine hwrites.trans ?_
      rw [writes_counting report h.1, List.length_cons]
      omega

end SyncReport

/-- A stretch tells what it changes: its counters go up by the changes of its course. -/
def SyncTask.Tells (responder : Responder σ) (task : SyncTask α) : Prop :=
  ∀ report state, (task.perform responder report state).1.2.counters =
    report.counters.countingAll
      ((task.course responder report state).filterMap (·.change? responder))

namespace SyncTask.Tells

theorem pure (a : α) : Tells responder (Pure.pure a) := fun _ _ => rfl

theorem ask {call : Call} (hread : ∀ w, call ≠ .write w) : Tells responder (SyncTask.ask call) := by
  intro report state
  have hnone : Turn.change? responder ⟨call, state⟩ = none := by
    cases call with
    | write w => exact absurd rfl (hread w)
    | _ => rfl
  have hcourse : (SyncTask.ask call).course responder report state = [⟨call, state⟩] := rfl
  rw [hcourse, List.filterMap_cons_none hnone]
  rfl

theorem write (w : Write) : Tells responder (SyncTask.write w) := by
  intro report state
  have hcourse : (SyncTask.write w).course responder report state = [⟨.write w, state⟩] := rfl
  rw [SyncTask.perform_write, hcourse]
  cases hreply : (responder (.write w) state).1 with
  | ok reply =>
    have hsome : Turn.change? responder ⟨.write w, state⟩ = some w := by
      simp only [Turn.change?, Turn.reply, hreply]
    rw [List.filterMap_cons_some hsome]
    exact report.counters_counting w
  | error error =>
    have hnone : Turn.change? responder ⟨.write w, state⟩ = none :=
      Turn.change?_eq_none responder hreply
    rw [List.filterMap_cons_none hnone]
    rfl

theorem bind {task : SyncTask α} {next : α → SyncTask β} (h : Tells responder task)
    (hnext : ∀ a, Tells responder (next a)) : Tells responder (task >>= next) := by
  intro report state
  have hfirst := h report state
  rw [SyncTask.perform_bind, SyncTask.course_bind, List.filterMap_append,
    SyncReport.countingAll_append, ← hfirst]
  rcases task.perform responder report state with ⟨⟨error | a, middle⟩, later⟩
  · rfl
  · exact hnext a middle later

theorem tryCatch {task : SyncTask α} {handler : Error → SyncTask α} (h : Tells responder task)
    (hhandler : ∀ error, Tells responder (handler error)) :
    Tells responder (MonadExcept.tryCatch task handler) := by
  intro report state
  have hfirst := h report state
  rw [SyncTask.perform_tryCatch, SyncTask.course_tryCatch, List.filterMap_append,
    SyncReport.countingAll_append, ← hfirst]
  rcases task.perform responder report state with ⟨⟨error | a, middle⟩, later⟩
  · exact hhandler error middle later
  · rfl

/-- To leave a table out is not counted. -/
theorem skipping (table : String) (cause : Error) :
    Tells responder (modify (·.skipping table cause)) := fun _ _ => rfl

end SyncTask.Tells

open SyncTask in
theorem Registry.tells_inTurn (live : List LiveTable) (decisions : List Decision) :
    Tells responder (inTurn live decisions) := by
  have hwriteAll (ws : List Write) : Tells responder (writeAll ws) := by
    induction ws with
    | nil => exact .pure ()
    | cons w ws ih => exact .bind (.write w) fun _ => ih
  induction decisions with
  | nil => exact .pure ()
  | cons decide later ih =>
    exact .bind (.bind (.ask fun _ hw => by cases hw) fun rows => hwriteAll _) fun _ => ih

open SyncTask in
theorem Columns.tells_reconcile (policy : OrderPolicy) (table : TrackedTable) :
    Tells responder (Columns.reconcile policy table) := by
  have hperform (steps : List Step) : Tells responder (perform table.tableId steps) := by
    induction steps with
    | nil => exact .pure _
    | cons step steps ih =>
      refine .bind ?_ fun _ => ih.bind fun _ => .pure _
      cases step with
      | keep id => exact .pure _
      | update column => exact .bind (.write _) fun _ => .pure _
      | insert column => exact .bind (.write _) fun _ => .pure _
      | delete id => exact .bind (.write _) fun _ => .pure _
  refine .bind (.ask fun _ hw => by cases hw) fun live => ?_
  refine .bind (.ask fun _ hw => by cases hw) fun rows => .bind (hperform _) fun ids => ?_
  unfold saveLayout
  dsimp only
  split
  · exact .write _
  · exact .pure ()

open SyncTask in
/-- The report of a pass tells what the pass changed, wherever it ends. -/
theorem tells_passStretch (policy : OrderPolicy) : Tells responder (passStretch policy) := by
  refine .bind (.ask fun _ hw => by cases hw) fun live => ?_
  refine .bind (Registry.tells_inTurn live _) fun _ => ?_
  refine .bind (.ask fun _ hw => by cases hw) fun tables => ?_
  induction tables with
  | nil => exact .pure ()
  | cons table tables ih =>
    exact .bind (.tryCatch (Columns.tells_reconcile policy table) fun cause => .skipping _ _)
      fun _ => ih

/-! ## Changes that depart -/

/-- A change of a pass is one that is counted, and it departs from the store at the beginning
    of the pass. -/
def Telling (origin : ShadowStore) (w : Write) : Prop :=
  origin.Departs w ∧ w.kind ≠ .setLabelColumn

/-- A row is new to a store, or has an id and a layout that a row has there. -/
def Known (origin : ShadowStore) (row : TrackedTable) : Prop :=
  origin.lastTableId < row.tableId ∨
    ∃ old ∈ origin.tables, old.tableId = row.tableId ∧ old.layout = row.layout

namespace Registry

variable {live : List LiveTable}

/-- Rows that were renamed or refreshed have kept their ids and layouts. -/
theorem RowByRow.exists_mem {rows rows' : List TrackedTable} {ws : List Write}
    (h : RowByRow rows ws rows') {row : TrackedTable} (hrow : row ∈ rows') :
    ∃ old ∈ rows, old.tableId = row.tableId ∧ old.layout = row.layout := by
  induction h with
  | nil => exact absurd hrow List.not_mem_nil
  | @keep first rows rows' ws _ ih =>
    rcases List.mem_cons.1 hrow with rfl | hrow
    · exact ⟨row, List.mem_cons_self, rfl, rfl⟩
    · obtain ⟨old, hold, heq⟩ := ih hrow
      exact ⟨old, List.mem_cons_of_mem _ hold, heq⟩
  | @change w first first' rows rows' ws hturns _ ih =>
    rcases List.mem_cons.1 hrow with rfl | hrow
    · refine ⟨first, List.mem_cons_self, hturns.tableId_eq.symm, ?_⟩
      cases hturns <;> rfl
    · obtain ⟨old, hold, heq⟩ := ih hrow
      exact ⟨old, List.mem_cons_of_mem _ hold, heq⟩

/-- The rows after the renames. -/
theorem mem_stage_renames (h : origin.WellKeyed) {row : TrackedTable}
    (hrow : row ∈ (stage live origin renames).tables) :
    ∃ old ∈ origin.tables, old.tableId = row.tableId ∧ old.layout = row.layout ∧
      old.physicalId = row.physicalId := by
  rw [stage, (applyAll_renames h live).2] at hrow
  obtain ⟨old, hold, rfl⟩ := List.mem_map.1 hrow
  refine ⟨old, hold, (renamed_tableId live old).symm, ?_, (renamed_physicalId live old).symm⟩
  unfold renamed
  split <;> rfl

/-- The rows after the renames and the refreshes. -/
theorem mem_stage_refreshes (h : origin.WellKeyed) {row : TrackedTable}
    (hrow : row ∈ (stage live (stage live origin renames) refreshes).tables) :
    ∃ old ∈ origin.tables, old.tableId = row.tableId ∧ old.layout = row.layout := by
  rw [stage, (applyAll_refreshes (wellKeyed_stage h live renames) live).2] at hrow
  obtain ⟨middle, hmiddle, hid, hlayout⟩ :=
    (rowByRow_refreshesFrom live _ (stage live origin renames).tables).exists_mem hrow
  obtain ⟨old, hold, hid', hlayout', _⟩ := mem_stage_renames h hmiddle
  exact ⟨old, hold, hid'.trans hid, hlayout'.trans hlayout⟩

/-- The steps of the registry change nothing for nothing. -/
theorem telling_of_mem_plan (h : origin.WellKeyed) :
    ∀ w ∈ plan live origin, Telling origin w := by
  intro w hw
  rcases List.mem_append.1 hw with hw | hw
  · obtain ⟨row, hrow, name, hne, rfl⟩ := of_mem_renames hw
    exact ⟨⟨row, hrow, rfl, hne.symm⟩, by simp [Write.kind]⟩
  rcases List.mem_append.1 hw with hw | hw
  -- A physical id that no row held is not that of the row that takes it.
  · obtain ⟨row, hrow, physicalId, hfree, rfl⟩ := of_mem_refreshesFrom hw
    obtain ⟨old, hold, hid, _, hphysical⟩ := mem_stage_renames h hrow
    refine ⟨⟨old, hold, hid, fun heq => hfree ?_⟩, by simp [Write.kind]⟩
    exact List.mem_map.2 ⟨row, hrow, hphysical.symm.trans heq⟩
  rcases List.mem_append.1 hw with hw | hw
  · obtain ⟨row, hrow, rfl⟩ := of_mem_removals hw
    obtain ⟨old, hold, hid, _⟩ := mem_stage_refreshes h hrow
    exact ⟨⟨old, hold, hid⟩, by simp [Write.kind]⟩
  rcases List.mem_append.1 hw with hw | hw
  · obtain ⟨name, physicalId, rfl⟩ := of_mem_insertions hw
    exact ⟨trivial, by simp [Write.kind]⟩
  · exact absurd hw List.not_mem_nil

/-- What is there after the steps of the registry: rows that are new or known, and
    no columns but those that were there. -/
theorem known_of_mem (h : origin.WellKeyed) (live : List LiveTable) :
    (∀ row ∈ (origin.applyAll (plan live origin)).tables, Known origin row) ∧
      (origin.applyAll (plan live origin)).columns ⊆ origin.columns := by
  have hrenamed := wellKeyed_stage h live renames
  have hrefreshed := wellKeyed_stage hrenamed live refreshes
  have hstore : ∃ rows writes, stage live (stage live origin renames) refreshes =
      { origin with tables := rows, writes } := by
    rw [stage, (applyAll_refreshes hrenamed live).2, stage, (applyAll_renames h live).2]
    exact ⟨_, _, rfl⟩
  obtain ⟨rows, writes, hstore⟩ := hstore
  have hknown : ∀ row ∈ (stage live (stage live origin renames) refreshes).tables,
      ∃ old ∈ origin.tables, old.tableId = row.tableId ∧ old.layout = row.layout :=
    fun _ hrow => mem_stage_refreshes h hrow
  rw [applyAll_plan, stage_insertions, stage_removals hrefreshed, hstore]
  rw [hstore] at hknown
  refine ⟨fun row hrow => ?_, List.filter_sublist.subset⟩
  rcases List.mem_append.1 hrow with hrow | hrow
  · exact .inr (hknown row (List.mem_filter.1 hrow).1)
  · exact .inl (mem_freshRows hrow).1

end Registry

namespace Columns

variable {table : TableId} {lives : List LiveColumn} {rows : List TrackedColumn}

theorem telling_deletes (h : rows ⊆ origin.columns) :
    ∀ w ∈ stepWrites table (rows.map fun row => .delete row.columnId), Telling origin w := by
  intro w hw
  obtain ⟨step, hstep, hwrite⟩ := List.mem_filterMap.1 hw
  obtain ⟨row, hrow, rfl⟩ := List.mem_map.1 hstep
  cases hwrite
  exact ⟨⟨row, h hrow, rfl⟩, by simp [Write.kind]⟩

theorem telling_matchUp (h : rows ⊆ origin.columns) :
    ∀ w ∈ stepWrites table (matchUp rows lives), Telling origin w := by
  induction lives generalizing rows with
  | nil => exact telling_deletes h
  | cons live lives ih =>
    rw [matchUp]
    cases hfind : rows.find? (·.position = live.position) with
    | none =>
      rw [stepWrites_cons, List.forall_mem_append]
      refine ⟨fun w hw => ?_, ih h⟩
      rw [List.mem_singleton.1 hw]
      exact ⟨trivial, by simp [Write.kind]⟩
    | some row =>
      have hrow := h (List.mem_of_find?_eq_some hfind)
      dsimp only
      rw [stepWrites_cons, List.forall_mem_append]
      refine ⟨fun w hw => ?_, ih (List.Subset.trans List.filter_sublist.subset h)⟩
      rw [matched] at hw
      split at hw
      · next hdiffers =>
        rw [List.mem_singleton.1 hw]
        refine ⟨⟨row, hrow, rfl, fun heq => ?_⟩, by simp [Write.kind]⟩
        -- A row that the live column would not change does not differ from it.
        have hsame : row.description = live.description := congrArg (·.description) heq
        rw [TrackedColumn.differsFrom_eq_false_iff.2 hsame] at hdiffers
        cases hdiffers
      · exact absurd hw List.not_mem_nil

theorem firsts_subset (seen : List Position) (rows : List TrackedColumn) :
    firsts seen rows ⊆ rows :=
  List.Subset.trans (List.subset_append_right _ _) (repeats_append_firsts_perm seen rows).subset

theorem repeats_subset (seen : List Position) (rows : List TrackedColumn) :
    repeats seen rows ⊆ rows :=
  List.Subset.trans (List.subset_append_left _ _) (repeats_append_firsts_perm seen rows).subset

/-- The plan for the columns of a table changes nothing for nothing, if the rows of its
    columns and its layout are as they were. -/
theorem telling_of_mem_plan {table : TrackedTable}
    (hcolumns : store.columnsOf table.tableId ⊆ origin.columns) (hknown : Known origin table) :
    ∀ w ∈ plan policy lives table store, Telling origin w := by
  have hsorted : (store.columnsOf table.tableId).mergeSort comesFirst ⊆ origin.columns :=
    List.Subset.trans (List.mergeSort_perm _ _).subset hcolumns
  rw [plan, steps, stepWrites_append, List.append_assoc, List.forall_mem_append,
    List.forall_mem_append]
  refine ⟨telling_deletes (List.Subset.trans (repeats_subset _ _) hsorted),
    telling_matchUp (List.Subset.trans (firsts_subset _ _) hsorted), fun w hw => ?_⟩
  unfold layoutWrites at hw
  dsimp only at hw
  split at hw
  · next hnew =>
    rw [List.mem_singleton.1 hw]
    refine ⟨hknown.imp_right ?_, by simp [Write.kind]⟩
    rintro ⟨old, hold, hid, hlayout⟩
    refine ⟨old, hold, hid, fun heq => ?_⟩
    obtain ⟨hids, horder⟩ := Prod.mk.inj (hlayout.symm.trans heq)
    exact hnew.elim (fun hne => hne hids.symm) (fun hne => hne horder.symm)
  · exact absurd hw List.not_mem_nil

end Columns

/-- To visit tables changes nothing for nothing, if these are known and no columns of theirs
    are new. -/
theorem telling_reconcileEach (b : Backing responder) (policy : OrderPolicy)
    (h : (b.store state).WellKeyed) (htables : ∀ table ∈ tables, table ∈ (b.store state).tables)
    (hids : tables.Pairwise (·.tableId ≠ ·.tableId))
    (hknown : ∀ table ∈ tables, Known origin table)
    (hcolumns : ∀ table ∈ tables, (b.store state).columnsOf table.tableId ⊆ origin.columns)
    (report : SyncReport) :
    ∀ w ∈ ((reconcileEach policy tables).course responder report state).filterMap
      (·.change? responder), Telling origin w := by
  induction tables generalizing state report with
  | nil => exact fun _ hw => absurd hw List.not_mem_nil
  | cons table tables ih =>
    rw [List.forall_mem_cons] at htables hknown hcolumns
    rw [List.pairwise_cons] at hids
    obtain ⟨hfew, hstore⟩ := changes_reconcileOrSkip (Columns.follows_reconcile h policy
      (ShadowStore.hasTable_iff.2 ⟨table, htables.1, rfl⟩)) report
    rw [(reconcileEach_cons policy responder table tables report state).2, List.filterMap_append,
      List.forall_mem_append]
    refine ⟨fun w hw => Columns.telling_of_mem_plan hcolumns.1 hknown.1 w (hfew.subset hw), ?_⟩
    have halike (other : TrackedTable) (hother : other ∈ tables) :=
      Columns.alike_applyAll_of_isPrefix h htables.1 hfew (hids.1 other hother).symm
    rw [← hstore] at halike
    refine ih ?_ (fun other hother => ?_) hids.2 hknown.2 (fun other hother => ?_) _
    · rw [hstore]
      exact h.applyAll _
    · exact ((halike other hother).row other rfl).2 (htables.2 other hother)
    · rw [(halike other hother).columns]
      exact hcolumns.2 other hother

/-! ## The pass -/

/-- Each change of a pass that ends well is counted, and departs from the store at its
    beginning. -/
theorem telling_changes_syncPass (b : Backing responder) (h : (b.store state).WellKeyed)
    (hdone : (syncPass policy).perform responder state = (.ok report, later)) :
    ∀ w ∈ (syncPass policy).changes responder state, Telling (b.store state) w := by
  rcases follows_opening h {} with ⟨middle, hpassage, hrun⟩ |
    ⟨_, _, _, _, error, _, _, _, _, _, hrun⟩
  · rw [← hpassage.store_eq] at hrun
    obtain ⟨hknown, hcolumns⟩ := Registry.known_of_mem h (b.live state).tables
    have hmiddle : (b.store middle).WellKeyed := hpassage.store_eq ▸ h.applyAll _
    rw [← hpassage.store_eq] at hknown hcolumns
    rw [CatalogTask.changes, (syncPass_of_opening_ok policy hrun).2, List.filterMap_append,
      hpassage.changes_eq, List.forall_mem_append]
    exact ⟨Registry.telling_of_mem_plan h, telling_reconcileEach b policy hmiddle
      (fun _ htable => htable) (hmiddle.tables.imp Int.ne_of_lt) hknown
      (fun _ _ => List.Subset.trans List.filter_sublist.subset hcolumns) _⟩
  · rw [(syncPass_of_opening_error policy hrun).1] at hdone
    cases hdone

/-- The report of a pass that ends well is exact, whichever calls failed while columns were
    reconciled: each counter is the number of changes of its kind, all together are the
    changes that the store counts, and there are none just if the store is as it was, and
    also just if its rows are. -/
theorem syncPass_accounts (b : Backing responder) (hreach : (b.store state).Reachable)
    (hdone : (syncPass policy).perform responder state = (.ok report, later)) :
    (∀ kind, report.count kind =
      ((syncPass policy).changes responder state).countP fun w => w.kind = kind) ∧
    (b.store later).writes = (b.store state).writes + report.writes ∧
    (report.writes = 0 ↔ b.store later = b.store state) ∧
    (report.writes = 0 ↔ (b.store state).SameRows (b.store later)) := by
  have htelling := telling_changes_syncPass b hreach.wellKeyed hdone
  obtain ⟨haccepts, hstore⟩ := b.applyAll_changes (syncPass policy).run state
  change ShadowStore.AcceptsAll _ ((syncPass policy).changes responder state) at haccepts
  change b.store ((syncPass policy).perform responder state).2 =
    (b.store state).applyAll ((syncPass policy).changes responder state) at hstore
  have hcounters : report.counters =
      SyncReport.countingAll {} ((syncPass policy).changes responder state) := by
    have hstretch : SyncTask.Tells responder (passStretch policy) := tells_passStretch policy
    have htells := hstretch {} state
    rw [← course_syncPass] at htells
    rw [perform_syncPass] at hdone
    obtain ⟨hreport, _⟩ := Prod.mk.inj hdone
    rcases hpass : ((passStretch policy).perform responder {} state).1 with ⟨error | _, told⟩
    · rw [hpass] at hreport
      cases hreport
    · rw [hpass] at hreport htells
      cases hreport
      exact htells
  generalize (syncPass policy).changes responder state = made at *
  rw [hdone] at hstore
  obtain ⟨hcount, hwrites⟩ := SyncReport.counts_countingAll {} fun w hw => (htelling w hw).2
  rw [← hcounters] at hcount hwrites
  have hlength : report.writes = made.length := hwrites.trans (Nat.zero_add _)
  have hnone : report.writes = 0 → b.store later = b.store state := fun hzero => by
    rw [hlength, List.length_eq_zero_iff] at hzero
    rw [hstore, hzero, ShadowStore.applyAll_nil]
  have hsome : (b.store state).SameRows (b.store later) → report.writes = 0 := fun hsame => by
    rw [hlength, List.length_eq_zero_iff]
    by_contra hne
    rw [hstore] at hsame
    exact ShadowStore.rows_ne_applyAll hreach.wellKeyed haccepts (fun w hw => (htelling w hw).1)
      hne hsame
  refine ⟨fun kind => ?_, ?_, ⟨hnone, fun heq => hsome (heq ▸ ⟨rfl, rfl⟩)⟩,
    ⟨fun hzero => hnone hzero ▸ ⟨rfl, rfl⟩, hsome⟩⟩
  · refine (hcount kind).trans ?_
    cases kind <;> exact Nat.zero_add _
  · rw [hstore, ShadowStore.writes_applyAll haccepts, hlength]

/-- A table is to be forgotten and another one to be tracked. The only column of a third one
    is out of date, and its layout cannot be saved. -/
def unfinished : World where
  live.entries := [⟨⟨1, "a"⟩, [⟨1, "id", "int", false, none, true, none⟩]⟩, ⟨⟨2, "b"⟩, []⟩]
  store := ShadowStore.applyAll {} [.insertTable "a" 1, .insertTable "c" 3,
    .insertColumn 1 ⟨1, "key", "int", false, none, true, none⟩]
  faults := [⟨.saveLayout, 0, 1, .catalog .lockPoisoned⟩]

theorem syncPass_accounts_unfinished :
    ∃ report later,
      (syncPass DisplayOrder.merge).perform World.respond unfinished = (.ok report, later) ∧
      report.tablesSkipped = [⟨"a", "Catalog error: Catalog lock poisoned"⟩] ∧
      report.columnsUpdated =
        ((syncPass DisplayOrder.merge).changes World.respond unfinished).countP
          (fun w => w.kind = .updateColumn) ∧
      report.writes = 3 ∧ later.store.writes = 6 ∧ ¬unfinished.store.SameRows later.store := by
  have hreach : (World.backing.store unfinished).Reachable :=
    ShadowStore.Reachable.empty.applyAll _
  have hreport : ((syncPass DisplayOrder.merge).perform World.respond unfinished).1.toOption =
      some ⟨0, 0, 1, 1, 0, 1, 0, 0, [⟨"a", "Catalog error: Catalog lock poisoned"⟩]⟩ := by
    decide +kernel
  rcases hdone : (syncPass DisplayOrder.merge).perform World.respond unfinished with
    ⟨_ | report, later⟩
  · rw [hdone] at hreport
    cases hreport
  · rw [hdone] at hreport
    cases hreport
    obtain ⟨hcount, hwrites, _, hrows⟩ := syncPass_accounts World.backing hreach hdone
    refine ⟨_, later, rfl, rfl, hcount .updateColumn, rfl, hwrites, fun hsame => ?_⟩
    exact absurd (hrows.2 hsame) (by decide)

end ShadowCatalog
