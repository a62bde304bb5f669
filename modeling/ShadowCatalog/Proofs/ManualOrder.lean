import ShadowCatalog.Proofs.Browse.Agreement
import ShadowCatalog.Proofs.History
import ShadowCatalog.Proofs.Reconcile.Arranged

/-!
# An order given by hand

To put the columns of a table in another order is all or nothing: the order is accepted if it
lists each column of the table once, and then replaces the one that is stored; otherwise, and if
a call fails, nothing has changed (`ReorderOutcome`).

An order that is accepted after a pass which left no table out sticks (`reorder_sticks`). The
columns are shown in it; and as long as later passes find the live columns of the table where
that pass found them, and the layout is not edited again (`Backing.Undisturbed`), these passes
do not so much as ask for the layout to be saved. The table is then arranged
(`ShadowStore.Arranged`): the ids that the order lists are those of its rows, and each row is at
the position of a live column.
-/

namespace ShadowCatalog

variable {σ : Type} {responder : Responder σ} {b : Backing responder} {state : σ}
  {name : String} {order : List ColumnId}

/-! ## What a request comes to -/

/-- The display order of a table is replaced. -/
def ShadowStore.reordered (store : ShadowStore) (table : TableId) (order : List ColumnId) :
    ShadowStore :=
  { store with
    tables := changeRow table ({ · with displayOrder := order }) store.tables
    writes := store.writes + 1 }

/-- What a request for another order comes to: an outcome, and the store that is left, where
    `failure?` is the call that failed, if one did. -/
inductive ReorderOutcome (store : ShadowStore) (name : String) (order : List ColumnId) :
    Option (Call × Error) → Except Error Unit → ShadowStore → Prop
  | failed {call : Call} {error : Error} :
      ReorderOutcome store name order (some (call, error)) (.error error) store
  | unknown : store.tableNamed? name = none →
      ReorderOutcome store name order none (.error (.validation (.unknownTable name))) store
  | refused {row : TrackedTable} {cause : ValidationError} :
      store.tableNamed? name = some row → DisplayOrder.Refused name row.columnIds order cause →
      ReorderOutcome store name order none (.error (.validation cause)) store
  /-- The display order of the table is replaced, and nothing else. -/
  | accepted {row : TrackedTable} :
      store.tableNamed? name = some row → order.Perm row.columnIds.toList →
      ReorderOutcome store name order none (.ok ()) (store.reordered row.tableId order)

/-- An order is accepted exactly if the table is tracked, no call fails, and the order lists
    each column of the table once. -/
theorem ReorderOutcome.ok_iff {store later : ShadowStore} {failure? : Option (Call × Error)}
    {outcome : Except Error Unit} (h : ReorderOutcome store name order failure? outcome later) :
    outcome = .ok () ↔ failure? = none ∧
      ∃ row, store.tableNamed? name = some row ∧ order.Perm row.columnIds.toList := by
  cases h with
  | failed => exact iff_of_false nofun nofun
  | unknown hnone =>
    refine iff_of_false nofun fun ⟨_, row, hrow, _⟩ => ?_
    exact absurd (hnone.symm.trans hrow) nofun
  | refused hrow hrefused =>
    refine iff_of_false nofun fun ⟨_, row, hrow', hperm⟩ => ?_
    obtain rfl := Option.some.inj (hrow.symm.trans hrow')
    have herror := DisplayOrder.validate_eq_error_iff.2 hrefused
    rw [DisplayOrder.validate_eq_ok_iff.2 hperm] at herror
    cases herror
  | accepted hrow hperm => exact iff_of_true rfl ⟨rfl, _, hrow, hperm⟩

theorem ReorderOutcome.of_ok {store later : ShadowStore} {failure? : Option (Call × Error)}
    (h : ReorderOutcome store name order failure? (.ok ()) later) :
    ∃ row, store.tableNamed? name = some row ∧ order.Perm row.columnIds.toList ∧
      later = store.reordered row.tableId order := by
  cases h with
  | accepted hrow hperm => exact ⟨_, hrow, hperm, rfl⟩

/-- The layout of a tracked table is saved, unless the call fails. -/
theorem saveLayout_cases (b : Backing responder) (hkeyed : (b.store state).WellKeyed)
    {row : TrackedTable} (hrow : row ∈ (b.store state).tables) (order : List ColumnId) :
    let call : Call := .write (.saveLayout row.tableId row.columnIds order)
    (∃ error, (responder call state).1 = .error error ∧
        b.store (responder call state).2 = b.store state) ∨
      (responder call state).1 = .ok () ∧
        b.store (responder call state).2 = (b.store state).reordered row.tableId order := by
  -- The columns that are saved with the order are those of the table.
  have hsame : ShadowStore.changeRow row.tableId
      ({ · with columnIds := row.columnIds, displayOrder := order }) (b.store state).tables =
        ShadowStore.changeRow row.tableId ({ · with displayOrder := order })
          (b.store state).tables :=
    ShadowStore.changeRow_congr fun other hother hid => by
      rw [hkeyed.table_eq hother hrow hid]
  have hwrite : (b.store state).write (.saveLayout row.tableId row.columnIds order) =
      .ok ((), (b.store state).reordered row.tableId order) := by
    rw [ShadowStore.write_saveLayout (ShadowStore.hasTable_iff.2 ⟨row, hrow, rfl⟩), hsame]
    rfl
  have hanswer : (b.live state).respond (.write (.saveLayout row.tableId row.columnIds order))
      (b.store state) = (.ok (), (b.store state).reordered row.tableId order) := by
    rw [LiveView.respond, hwrite]
  rcases b.reply_or_struck hanswer with hsaved | ⟨error, ⟨herror, -⟩, hstore⟩
  · exact .inr hsaved
  · exact .inl ⟨error, herror, hstore⟩

/-- A request for another order comes to nothing, or the order of the table is replaced. -/
theorem reorderOutcome (b : Backing responder) (hkeyed : (b.store state).WellKeyed) (name : String)
    (order : List ColumnId) :
    ReorderOutcome (b.store state) name order
      (Turn.failure? responder ((reorder name order).course responder state))
      ((reorder name order).perform responder state).1
      (b.store ((reorder name order).perform responder state).2) := by
  have hcases := trackedTable_cases b name state
  rw [reorder, CatalogTask.course_bind, CatalogTask.perform_bind, Turn.failure?_append]
  rcases hfound : (trackedTable name).perform responder state with ⟨found, later⟩
  rw [hfound] at hcases
  dsimp only at hcases ⊢
  obtain ⟨hstore, ⟨call, error, hfailure, rfl⟩ | ⟨hfailure, rfl⟩⟩ := hcases
  · rw [hfailure, hstore]
    exact .failed
  rw [hfailure, Option.none_or, ← hstore]
  rw [← hstore] at hkeyed
  cases hrow : (b.store later).tableNamed? name with
  | none => exact .unknown hrow
  | some row =>
    dsimp only
    cases hvalid : DisplayOrder.validate name row.columnIds order with
    | error cause => exact .refused hrow (DisplayOrder.validate_eq_error_iff.1 hvalid)
    | ok =>
      have hsaved := saveLayout_cases b hkeyed (List.mem_of_find?_eq_some hrow) order
      dsimp only at hsaved ⊢
      rw [CatalogTask.perform_ask, CatalogTask.failure?_ask, Turn.error?, Turn.reply]
      rcases hsaved with ⟨error, herror, hsame⟩ | ⟨hok, hlater⟩
      · rw [herror, hsame]
        exact .failed
      · rw [hok, hlater]
        exact .accepted hrow (DisplayOrder.validate_eq_ok_iff.1 hvalid)

/-- A table whose row is changed is still the one of its name. -/
theorem find?_changeRow {rows : List TrackedTable} {row : TrackedTable}
    {change : TrackedTable → TrackedTable} (hname : ∀ row, (change row).name = row.name)
    (hrow : rows.find? (·.name = name) = some row) :
    (ShadowStore.changeRow row.tableId change rows).find? (·.name = name) = some (change row) := by
  have hsame (other : TrackedTable) :
      (if other.tableId = row.tableId then change other else other).name = other.name := by
    split
    · exact hname other
    · rfl
  rw [ShadowStore.changeRow, List.find?_map]
  simp only [Function.comp_def, hsame]
  rw [hrow, Option.map_some, if_pos rfl]

/-! ## What is shown -/

/-- Unless the call for them fails, the columns of a table are shown in an order. -/
def Backing.Shows (b : Backing responder) (row : TrackedTable) (order : List ColumnId)
    (state : σ) : Prop :=
  Unfailing responder ((orderedColumns DisplayOrder.merge row).course responder state) →
    ∃ columns, ((orderedColumns DisplayOrder.merge row).perform responder state).1 = .ok columns ∧
      columns.Perm ((b.store state).columnsOf row.tableId) ∧ columns.map (·.columnId) = order

/-- The columns of a table that is arranged are shown in its order. -/
theorem ShadowStore.Arranged.shows {table : TableId} {places : List (ColumnId × Position)}
    (h : (b.store state).Arranged table order places) {row : TrackedTable}
    (hrow : row ∈ (b.store state).tables) (hid : row.tableId = table) :
    b.Shows row order state := by
  subst hid
  intro hunfailing
  obtain ⟨hids, hperm⟩ := ordered_spec h.keyed DisplayOrder.merge_listsEach row
  refine ⟨_, orderedColumns_of_unfailing b hunfailing, hperm, hids.trans ?_⟩
  rw [show row.displayOrder = order from congrArg Prod.snd (h.layout row hrow rfl)]
  exact DisplayOrder.merge_of_perm ((h.columnIds_perm hrow rfl).trans
    (IdSet.toList_ofList_perm (h.keyed.columnsOf_nodup row.tableId)).symm)

/-- When an order is accepted for a table whose columns are settled, it is arranged. -/
theorem Columns.Settled.arranged {policy : OrderPolicy} {lives : List LiveColumn}
    {store : ShadowStore} {row : TrackedTable}
    (h : Settled policy lives row (store.columnsOf row.tableId)) (hkeyed : store.WellKeyed)
    (hrow : row ∈ store.tables) (hperm : order.Perm row.columnIds.toList) :
    (store.reordered row.tableId order).Arranged row.tableId order
      ((store.columnsOf row.tableId).map (·.place)) := by
  refine ⟨?_, hkeyed.tables_le row hrow, fun kept hkept hid => ?_, fun _ _ _ => .refl _, ?_⟩
  · refine hkeyed.changeRow (fun other => ?_) _
    rfl
  · rcases ShadowStore.mem_changeRow.1 hkept with ⟨-, hne⟩ | ⟨old, hold, holdId, rfl⟩
    · exact absurd hid hne
    · obtain rfl := hkeyed.table_eq hold hrow holdId
      refine Prod.ext (IdSet.ext fun id => ?_) rfl
      rw [IdSet.mem_ofList, hperm.mem_iff]
      rfl
  · rw [List.map_map]
    refine hperm.trans ((List.perm_ext_iff_of_nodup row.columnIds.nodup_toList
      (hkeyed.columnsOf_nodup row.tableId)).2 fun id => ?_)
    rw [IdSet.mem_toList, h.columnIds, List.mem_map]

/-! ## What may happen to a table -/

/-- Nothing happened to the order of a table since it was `start`: nothing in the shadow
    catalog, or changes that spare the table, or passes, cut short or not, that find its live
    columns at positions. -/
inductive Backing.Undisturbed (b : Backing responder) (table : TableId)
    (positions : List Position) (start : σ) : σ → Prop
  | start : Undisturbed b table positions start start
  | outside {state later : σ} : Undisturbed b table positions start state →
      b.store later = b.store state → Undisturbed b table positions start later
  | spared {state later : σ} {w : Write} : Undisturbed b table positions start state →
      w.Spares table → b.store later = (b.store state).apply w →
      Undisturbed b table positions start later
  | pass {state later : σ} : Undisturbed b table positions start state →
      b.FindsAt table positions state →
      later ∈ (syncPass DisplayOrder.merge).states responder state →
      Undisturbed b table positions start later

/-- A table stays arranged as long as it is not disturbed. -/
theorem Backing.Undisturbed.arranged {table : TableId} {places : List (ColumnId × Position)}
    {positions : List Position} {later : σ} (hlater : b.Undisturbed table positions state later)
    (h : (b.store state).Arranged table order places)
    (hpositions : positions.Perm (places.map Prod.snd)) (hdistinct : positions.Nodup) :
    (b.store later).Arranged table order places := by
  induction hlater with
  | start => exact h
  | outside _ hstore ih => exact hstore ▸ ih
  | spared _ hspares hstore ih => exact hstore ▸ ih.apply_of_spares hspares
  | pass _ hfinds hstate ih =>
    exact arranged_of_mem_states ih (hpositions.nodup hdistinct) (hfinds.of_perm hpositions) hstate

/-- An order is accepted exactly if it lists each column of a tracked table once and no call
    fails; then it replaces the order of the table, and nothing else has changed. Otherwise
    nothing has changed at all.

    If a pass had left the tables as they were, and left none out, then the columns of the
    table are shown in that order from then on, and no pass asks for the layout of the table
    to be saved, as long as passes find its live columns at the positions where that pass found
    them, which differ as a database promises, and nothing else disturbs it. -/
theorem reorder_sticks (b : Backing responder) (hkeyed : (b.store state).WellKeyed) (name : String)
    (order : List ColumnId) :
    let asked := (reorder name order).perform responder state
    let failure? := Turn.failure? responder ((reorder name order).course responder state)
    ReorderOutcome (b.store state) name order failure? asked.1 (b.store asked.2) ∧
    (asked.1 = .ok () ↔ failure? = none ∧
      ∃ row, (b.store state).tableNamed? name = some row ∧ order.Perm row.columnIds.toList) ∧
    (asked.1 = .ok () → ∀ start report left, (b.store start).WellKeyed →
      (syncPass DisplayOrder.merge).perform responder start = (.ok report, left) →
      report.tablesSkipped = [] → b.store state = b.store left →
      ∃ row, (b.store asked.2).tableNamed? name = some row ∧ b.Shows row order asked.2 ∧
        ∀ positions : List Position, b.FindsAt row.tableId positions start → positions.Nodup →
          ∀ later, b.Undisturbed row.tableId positions asked.2 later →
            (∀ kept ∈ (b.store later).tables, kept.tableId = row.tableId →
              kept.displayOrder = order ∧ b.Shows kept order later) ∧
            (b.FindsAt row.tableId positions later →
              ∀ turn ∈ (syncPass DisplayOrder.merge).course responder later,
                ∀ columnIds displayOrder,
                  turn.call ≠ .write (.saveLayout row.tableId columnIds displayOrder))) := by
  intro asked failure?
  have houtcome := reorderOutcome b hkeyed name order
  refine ⟨houtcome, houtcome.ok_iff, fun hok start report left hstart hsync hclean hleft => ?_⟩
  rw [show ((reorder name order).perform responder state).1 = .ok () from hok] at houtcome
  obtain ⟨row, hrow, hperm, hstore⟩ := houtcome.of_ok
  have hmem := List.mem_of_find?_eq_some hrow
  -- The pass had settled the columns of the table, so that it is arranged now.
  obtain ⟨visit, hvisit, hid, hsettled⟩ :=
    settled_of_clean hstart DisplayOrder.merge_stable hsync hclean (hleft ▸ hmem)
  rw [← hleft] at hsettled
  have harranged := hsettled.arranged hkeyed hmem hperm
  rw [← hstore] at harranged
  refine ⟨{ row with displayOrder := order }, ?_, ?_,
    fun positions hfound hdistinct later hlater => ?_⟩
  · rw [hstore]
    exact find?_changeRow (fun _ => rfl) hrow
  · refine harranged.shows ?_ rfl
    rw [hstore]
    exact ShadowStore.mem_changeRow.2 (.inr ⟨row, hmem, rfl, rfl⟩)
  have hpositions : positions.Perm
      ((((b.store state).columnsOf row.tableId).map (·.place)).map Prod.snd) := by
    have hdescribed := hsettled.described.map Prod.fst
    rw [List.map_map, List.map_map] at hdescribed
    rw [List.map_map]
    exact (hdescribed.trans (hfound visit hvisit hid)).symm
  have hstill := hlater.arranged harranged hpositions hdistinct
  refine ⟨fun kept hkept hkeptId => ?_, fun hfinds => ?_⟩
  · exact ⟨congrArg Prod.snd (hstill.layout kept hkept hkeptId), hstill.shows hkept hkeptId⟩
  · exact fun turn hturn => not_saveLayout_of_mem_course hstill (hpositions.nodup hdistinct)
      (hfinds.of_perm hpositions) hturn

/-- The goods, in an order given by hand once the rows have caught up, and with a label
    chosen after that. -/
def rearranged : ShadowStore :=
  (caughtUp.reordered 1 [2, 3, 1]).apply (.setLabelColumn 1 (some "title"))

theorem reorder_sticks_lagging :
    let asked := (reorder "goods" [2, 3, 1]).perform lagging.view.respond caughtUp
    asked.1 = .ok () ∧ rearranged = asked.2.apply (.setLabelColumn 1 (some "title")) ∧
      (∀ kept ∈ rearranged.tables, kept.displayOrder = [2, 3, 1]) ∧
      ∀ turn ∈ (syncPass DisplayOrder.merge).course lagging.view.respond rearranged,
        ∀ columnIds displayOrder,
          turn.call ≠ .write (.saveLayout 1 columnIds displayOrder) := by
  intro asked
  have hstart : (lagging.view.backing.store lagging.store).WellKeyed :=
    (ShadowStore.Reachable.empty.applyAll _).wellKeyed
  have hsync : (syncPass DisplayOrder.merge).perform lagging.view.respond lagging.store =
      (.ok ⟨1, 0, 0, 0, 0, 2, 0, 1, []⟩, caughtUp) := by
    cbv
  have hkeyed : (lagging.view.backing.store caughtUp).WellKeyed := by
    have hleft := (lagging.view.backing.throughout_wellKeyed
      (syncPass DisplayOrder.merge).run hstart).last
    rw [show Program.run lagging.view.respond _ _ = _ from hsync] at hleft
    exact hleft
  have hok : asked.1 = .ok () := by decide +kernel
  have hasked : rearranged = asked.2.apply (.setLabelColumn 1 (some "title")) := by
    decide +kernel
  -- In both passes, the live columns of the goods are found where they are.
  have hpositions : (lagging.view.columns "goods").map (·.position) = [1, 2, 5] := by
    cbv
  have hfinds {store : ShadowStore} (hvisited : (passVisits DisplayOrder.merge
      lagging.view.respond store).map (·.table.name) = ["goods"]) :
      lagging.view.backing.FindsAt 1 [1, 2, 5] store := by
    intro visit hvisit _
    have hname := List.mem_map_of_mem (f := fun v => v.table.name) hvisit
    rw [hvisited] at hname
    rw [List.mem_singleton.1 hname]
    exact .of_eq hpositions
  obtain ⟨-, -, hsticks⟩ := reorder_sticks lagging.view.backing hkeyed "goods" [2, 3, 1]
  obtain ⟨row, hrow, -, hlater⟩ := hsticks hok _ _ _ hstart hsync rfl rfl
  obtain rfl : row = ⟨1, "goods", 4, .ofList [1, 2, 3], [2, 3, 1], none⟩ := by
    refine Option.some.inj (hrow.symm.trans ?_)
    decide +kernel
  obtain ⟨horder, hquiet⟩ := hlater [1, 2, 5] (hfinds (by cbv)) (by decide) rearranged
    (.spared (w := .setLabelColumn 1 (some "title")) .start trivial hasked)
  have hids : ∀ kept ∈ rearranged.tables, kept.tableId = 1 := by decide +kernel
  exact ⟨hok, hasked, fun kept hkept => (horder kept hkept (hids kept hkept)).1,
    hquiet (hfinds (by cbv))⟩

end ShadowCatalog
