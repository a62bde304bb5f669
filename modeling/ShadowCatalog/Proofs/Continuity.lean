import ShadowCatalog.Proofs.History
import ShadowCatalog.Proofs.Reconcile.Orderly

/-!
# The order given by hand goes on

Columns are put in order by hand, and whatever happens later, no pass undoes it. As long as
the presentation is not edited again (`Backing.Unedited`), each display order goes on from
those that it had before: what was listed comes first, in the order that it had, and what is
new follows. What has left an order never comes back to it (`Backing.Moment.displayOrder_goes_on`).

The changes of a pass are orderly wherever it ends (`orderly_changes_syncPass`), and over
orderly changes a display order goes on (`ShadowStore.continues_applyAll`). What is left is
that a history as a whole, edits included, lists only ids that were given
(`Backing.Moment.listing`). For an order given by hand this holds as it is one of the order
before: the columns that it is checked against are those of the row, and these are the listed
ones at every moment.
-/

namespace ShadowCatalog

variable {σ : Type} {responder : Responder σ} {state later : σ} {policy : OrderPolicy}

/-! ## Passes -/

/-- Between the calls of a pass, the store is as a few orderly changes have left it. -/
theorem Backing.orderly_of_mem_states_syncPass (b : Backing responder)
    (h : (b.store state).WellKeyed) (hlater : later ∈ (syncPass policy).states responder state) :
    ∃ few, (b.store state).Each (ShadowStore.Orderly policy) few ∧
      b.store later = (b.store state).applyAll few := by
  obtain ⟨few, ⟨rest, heq⟩, hstore⟩ :=
    CatalogTask.forall_mem_states.2 (b.throughout_applyAll (syncPass policy).run state) later hlater
  have horderly : (b.store state).Each (ShadowStore.Orderly policy)
      ((syncPass policy).changes responder state) := orderly_changes_syncPass b h
  rw [CatalogTask.changes, CatalogTask.course, ← heq] at horderly
  exact ⟨few, (ShadowStore.each_append.1 horderly).1, hstore⟩

/-! ## Edits -/

/-- The columns of a row may be put in another order. -/
theorem ShadowStore.Listing.saveLayout {store : ShadowStore} (h : store.Listing)
    {table : TrackedTable} (htable : table ∈ store.tables) {order : List ColumnId}
    (hperm : order.Perm table.displayOrder) (columnIds : IdSet) :
    (store.apply (.saveLayout table.tableId columnIds order)).Listing := by
  have hgiven := givenBy_apply store (.saveLayout table.tableId columnIds order)
  -- Each row lists what a row listed before, up to the order.
  have hrow : ∀ row ∈ (store.apply (.saveLayout table.tableId columnIds order)).tables,
      row.displayOrder = [] ∨ ∃ old ∈ store.tables, row.displayOrder.Perm old.displayOrder := by
    intro row hrow
    rcases row_of_mem_apply hrow with ⟨old, hold, _, hsame | ⟨_, hw⟩⟩ | ⟨_, hempty⟩
    · exact .inr ⟨old, hold, .of_eq hsame⟩
    · obtain ⟨_, _, rfl⟩ := Write.saveLayout.inj hw
      exact .inr ⟨table, htable, hperm⟩
    · exact .inl hempty
  refine ⟨h.toWellKeyed.apply _, fun row hmem => ?_, fun row hmem id hid => ?_⟩
  · rcases hrow row hmem with hempty | ⟨old, hold, hsame⟩
    · exact hempty ▸ .nil
    · exact hsame.nodup_iff.2 (h.nodup old hold)
  · rcases hrow row hmem with hempty | ⟨old, hold, hsame⟩
    · rw [hempty] at hid
      exact absurd hid List.not_mem_nil
    · exact Int.le_trans (h.given old hold id (hsame.mem_iff.1 hid)) hgiven.2

namespace Backing

variable (b : Backing responder)

/-- A tracked table that is found is one of the store, which stays as it is. -/
theorem of_trackedTable {name : String} {table : TrackedTable}
    (h : (trackedTable name).perform responder state = (.ok table, later)) :
    b.store later = b.store state ∧ table ∈ (b.store state).tables := by
  obtain ⟨hstore, ⟨_, _, -, herror⟩ | ⟨-, hfound⟩⟩ := trackedTable_cases b name state
  · rw [h] at herror
    cases herror
  · rw [h] at hstore hfound
    cases hrow : (b.store state).tableNamed? name with
    | none =>
      rw [hrow] at hfound
      cases hfound
    | some row =>
      rw [hrow] at hfound
      cases hfound
      exact ⟨hstore, List.mem_of_find?_eq_some hrow⟩

/-- A store that lists given ids does so throughout a reordering. -/
theorem throughout_reorder_listing (name : String) (order : List ColumnId)
    (h : (b.store state).Listing) (hcoherent : (b.store state).Coherent) :
    Program.Throughout responder (fun s => (b.store s).Listing) (reorder name order).run state := by
  refine CatalogTask.throughout_bind.2 ⟨?_, ?_⟩
  · refine b.throughout_of_asks (asks_trackedTable rfl) (q := (· = .trackedTable name)) ?_ h
    exact fun w hw => nomatch hw
  · rcases hfound : (trackedTable name).perform responder state with ⟨_ | table, found⟩
    · exact trivial
    · obtain ⟨hstore, hmem⟩ := b.of_trackedTable hfound
      rw [← hstore] at h hcoherent hmem
      dsimp only
      cases hvalid : DisplayOrder.validate name table.columnIds order with
      | error cause => exact h
      | ok =>
        have hperm := (DisplayOrder.perm_of_validate hvalid).trans
          (hcoherent.displayOrder table hmem).2.symm
        refine ⟨h, ?_⟩
        change (b.store (responder (.write _) found).2).Listing
        rcases b.store_cases (.write (.saveLayout table.tableId table.columnIds order)) found with
          hsame | ⟨w, hw, hlater⟩
        · exact hsame ▸ h
        · cases hw
          exact hlater ▸ h.saveLayout hmem hperm table.columnIds

end Backing

/-! ## Histories -/

/-- At every moment of a history, display orders list ids that were given. -/
theorem Backing.Moment.listing {b : Backing responder} (h : b.Moment state) :
    (b.store state).Listing := by
  induction h with
  | start hempty => exact hempty ▸ .empty
  | outside _ hsame ih => exact hsame ▸ ih
  | pass hbefore hpolicy _ hlater ih =>
    obtain ⟨few, horderly, hstore⟩ := b.orderly_of_mem_states_syncPass ih.toWellKeyed hlater
    exact hstore ▸ ih.applyAll hpolicy horderly
  | reorder name order hbefore hlater ih =>
    exact CatalogTask.forall_mem_states.2
      (b.throughout_reorder_listing name order ih hbefore.coherent) _ hlater
  | chooseLabel name column _ hlater ih =>
    refine CatalogTask.forall_mem_states.2 (b.throughout_of_asks (asks_chooseLabel name column)
      ?_ ih) _ hlater
    intro w hw store hlisting
    obtain ⟨table, rfl⟩ := hw w rfl
    exact hlisting.apply DisplayOrder.merge_listsEach trivial

/-- The states between the calls of a history that goes on from a state, in which the
    presentation is not edited and columns are put in order by the merge. -/
inductive Backing.Unedited (b : Backing responder) (start : σ) : σ → Prop
  | refl : Unedited b start start
  /-- The live catalog changes, or what makes calls fail does. -/
  | outside {state later : σ} :
      Unedited b start state → b.store later = b.store state → Unedited b start later
  /-- A pass is run. The live catalog may be any, and change meanwhile. -/
  | pass {state later : σ} : Unedited b start state →
      later ∈ (syncPass DisplayOrder.merge).states responder state → Unedited b start later

/-- Where the presentation is not edited, what was tracked goes on. -/
theorem Backing.Unedited.continues {b : Backing responder} {start : σ}
    (hstart : (b.store start).Listing) (h : b.Unedited start later) :
    (b.store later).Listing ∧ (b.store start).Continues (b.store later) := by
  induction h with
  | refl => exact ⟨hstart, .refl hstart.toWellKeyed⟩
  | outside _ hsame ih => exact hsame ▸ ih
  | pass _ hlater ih =>
    obtain ⟨hlisting, hcontinues⟩ := ih
    obtain ⟨few, horderly, hstore⟩ := b.orderly_of_mem_states_syncPass hlisting.toWellKeyed hlater
    have hpass := ShadowStore.continues_applyAll hlisting horderly
    rw [← hstore] at hpass
    exact ⟨hstore ▸ hlisting.applyAll DisplayOrder.merge_listsEach horderly,
      hcontinues.trans hstart hlisting.toWellKeyed hpass⟩

/-- After any moment, as long as the presentation is not edited, the display order of each
    table that stays tracked goes on from the one at the moment, and what leaves an order
    does not come back to it. -/
theorem Backing.Moment.displayOrder_goes_on {b : Backing responder} {start : σ}
    (hstart : b.Moment start) :
    (∀ last, b.Unedited start last → ∀ old ∈ (b.store start).tables,
      ∀ row ∈ (b.store last).tables, row.tableId = old.tableId →
        DisplayOrder.Extends old.displayOrder row.displayOrder) ∧
    ∀ first middle last, b.Unedited start first → b.Unedited first middle →
      b.Unedited middle last → ∀ table id, (b.store first).Lists table id →
        ¬(b.store middle).Lists table id → ¬(b.store last).Lists table id := by
  refine ⟨fun last hlast => (hlast.continues hstart.listing).2.order, ?_⟩
  intro first middle last hfirst hmiddle hlast table id
  have hlisting := (hfirst.continues hstart.listing).1
  obtain ⟨hlisting', hbefore⟩ := hmiddle.continues hlisting
  exact hbefore.not_lists hlisting (hlast.continues hlisting').2

/-! ## A history in memory -/

namespace World

theorem unedited_syncPass {start world : World} (h : backing.Unedited start world) :
    backing.Unedited start ((syncPass DisplayOrder.merge).perform respond world).2 :=
  .pass h (CatalogTask.perform_mem_states _ _ _)

/-- The id of each table, and its display order. -/
def orders (world : World) : List (TableId × List ColumnId) :=
  world.store.tables.map fun row => (row.tableId, row.displayOrder)

theorem lists_iff {world : World} {table : TableId} {id : ColumnId} :
    (backing.store world).Lists table id ↔
      ∃ entry ∈ world.orders, entry.1 = table ∧ id ∈ entry.2 := by
  simp [ShadowStore.Lists, orders, backing]

/-- Two columns are put in order by hand. One of them is dropped while a pass is cut short,
    and leaves the order with the next pass. When it is made again, it goes last, under an
    id of its own. -/
theorem displayOrder_goes_on_restored :
    ∃ first start aborted middle last,
      ((syncPass DisplayOrder.merge).perform respond founded).2 = first ∧
      (reorder "a" [2, 1]).perform respond first = (.ok (), start) ∧
      (syncPass DisplayOrder.merge).perform respond (troubled start.store) =
        (.error (.catalog (.cancelled "insert")), aborted) ∧
      ((syncPass DisplayOrder.merge).perform respond
        { troubled aborted.store with faults := [] }).2 = middle ∧
      ((syncPass DisplayOrder.merge).perform respond
        { founded with store := middle.store }).2 = last ∧
      start.orders = [(1, [2, 1]), (2, [3])] ∧
      middle.orders = [(1, [2]), (3, [4])] ∧
      last.orders = [(1, [2, 5]), (4, [6])] ∧
      DisplayOrder.Extends [2, 1] [2, 5] ∧ ¬last.store.Lists 1 1 := by
  obtain ⟨first, hfirst⟩ :
    ∃ first, ((syncPass DisplayOrder.merge).perform respond founded).2 = first := ⟨_, rfl⟩
  obtain ⟨start, hstart⟩ :
    ∃ start, ((reorder "a" [2, 1]).perform respond first).2 = start := ⟨_, rfl⟩
  obtain ⟨aborted, haborted⟩ :
    ∃ aborted, ((syncPass DisplayOrder.merge).perform respond (troubled start.store)).2 =
      aborted := ⟨_, rfl⟩
  obtain ⟨middle, hmiddle⟩ :
    ∃ middle, ((syncPass DisplayOrder.merge).perform respond
      { troubled aborted.store with faults := [] }).2 = middle := ⟨_, rfl⟩
  obtain ⟨last, hlast⟩ :
    ∃ last, ((syncPass DisplayOrder.merge).perform respond
      { founded with store := middle.store }).2 = last := ⟨_, rfl⟩
  have hmoment₁ : backing.Moment first :=
    hfirst ▸ moment_syncPass (.start rfl) (view_distinct (by decide) (by decide))
  have hmoment : backing.Moment start := by
    rw [← hstart]
    exact .reorder "a" [2, 1] hmoment₁ (CatalogTask.perform_mem_states _ _ _)
  have hunedited₁ : backing.Unedited start aborted :=
    haborted ▸ unedited_syncPass (.outside .refl rfl)
  have hunedited₂ : backing.Unedited start middle :=
    hmiddle ▸ unedited_syncPass (.outside hunedited₁ rfl)
  have hunedited₃ : backing.Unedited middle last :=
    hlast ▸ unedited_syncPass (.outside .refl rfl)
  have horders : start.orders = [(1, [2, 1]), (2, [3])] := by
    rw [← hstart, ← hfirst]
    cbv
  have horders' : middle.orders = [(1, [2]), (3, [4])] := by
    rw [← hmiddle, ← haborted, ← hstart, ← hfirst]
    cbv
  have horders'' : last.orders = [(1, [2, 5]), (4, [6])] := by
    rw [← hlast, ← hmiddle, ← haborted, ← hstart, ← hfirst]
    cbv
  obtain ⟨hextends, hback⟩ := Backing.Moment.displayOrder_goes_on hmoment
  refine ⟨first, start, aborted, middle, last, hfirst, Prod.ext ?_ hstart, Prod.ext ?_ haborted,
    hmiddle, hlast, horders, horders', horders'', ?_, ?_⟩
  · rw [← hfirst]
    cbv
  · rw [← hstart, ← hfirst]
    cbv
  · have hunedited : backing.Unedited start last :=
      hlast ▸ unedited_syncPass (.outside hunedited₂ rfl)
    have hentries : ∀ entry ∈ start.orders, ∀ entry' ∈ last.orders, entry'.1 = entry.1 →
        DisplayOrder.Extends entry.2 entry'.2 :=
      List.forall_mem_map.2 fun old hold => List.forall_mem_map.2 (hextends last hunedited old hold)
    rw [horders, horders''] at hentries
    exact hentries (1, [2, 1]) (by decide) (1, [2, 5]) (by decide) rfl
  · refine hback start middle last .refl hunedited₂ hunedited₃ 1 1 ?_ ?_
    · rw [lists_iff, horders]
      decide
    · rw [lists_iff, horders']
      decide

end World

end ShadowCatalog
