import Mathlib.Data.List.Nodup
import Mathlib.Tactic.Common
import ShadowCatalog.Proofs.Browse.UpToDate
import ShadowCatalog.Proofs.Reconcile.RenamedTable

/-!
# Browsing after a table was renamed

A table of catalogs in memory takes a name that no table has. After the next pass, a request
on it under the new name comes to what one under the old name came to before, and so does a
request on any other table (`planBrowse_of_renameTable`): the same is shown under the same
names and in the same order, and the same values are bound, though the statement may join
the table by another name, if the new one is taken. The old name is unknown.

The pass only renames the rows of the table (`applyAll_passPlan_of_renamedTable`), and what
is planned of the rows depends on their names no further than that
(`renamedOutcome_planBrowse`).
-/

namespace ShadowCatalog

variable {old new : String} {live live' : LiveView} {store : ShadowStore}

/-! ## Planning from renamed rows -/

namespace ShadowStore

section

variable (old) (hrows : ∀ row ∈ store.tables, row.name ≠ new)
include hrows

theorem tableNamed?_renameTables {name : String} (hname : name ≠ new) :
    (store.renameTables (renamedTo old new)).tableNamed? (renamedTo old new name) =
      (store.tableNamed? name).map (·.rename (renamedTo old new)) := by
  rw [tableNamed?, renameTables, List.find?_map]
  refine congrArg _ (List.find?_congr fun row hrow => ?_)
  exact decide_eq_decide.2 (renamedTo_eq_iff (hrows row hrow) hname)

/-- A table is labelled as before. -/
theorem labelOf?_renameTables {name : String} (hname : name ≠ new) :
    (store.renameTables (renamedTo old new)).labelOf? (renamedTo old new name) =
      store.labelOf? name := by
  rw [labelOf?, tableNamed?_renameTables old hrows hname, labelOf?]
  cases store.tableNamed? name <;> rfl

theorem labelled_renameTables {keys : List ForeignKey}
    (hkeys : ∀ key ∈ keys, key.referencedTable ≠ new) :
    (store.renameTables (renamedTo old new)).labelled
        (keys.map (·.rename (renamedTo old new))) =
      (store.labelled keys).map (·.rename (renamedTo old new)) := by
  rw [labelled, labelled, List.map_map, List.map_map]
  refine List.map_congr_left fun key hkey => ?_
  have hlabel := labelOf?_renameTables old hrows (hkeys key hkey)
  simp only [Function.comp_apply, ForeignKey.rename, hlabel]

end

end ShadowStore

/-- The old name is not tracked any more. -/
theorem ShadowStore.tableNamed?_renameTables_old (store : ShadowStore) (hne : old ≠ new) :
    (store.renameTables (renamedTo old new)).tableNamed? old = none := by
  refine List.find?_eq_none.2 fun row' hrow' => ?_
  obtain ⟨row, -, rfl⟩ := List.mem_map.1 hrow'
  exact fun heq => renamedTo_ne hne row.name (of_decide_eq_true heq)

/-- A request under the new names comes to the same, for the rows under their new names. -/
theorem renamedOutcome_planBrowse (hlive : live.RenamedTable old new live')
    (hrows : ∀ row ∈ store.tables, row.name ≠ new)
    (hkeys : ∀ name, ∀ key ∈ live.foreignKeys name, key.referencedTable ≠ new)
    (policy : OrderPolicy) {request : BrowseRequest} (hrequest : request.table ≠ new)
    (pageSize : Int) (writes : Nat) :
    BrowseQuery.RenamedOutcome (renamedTo old new)
      ((planBrowse policy request pageSize).perform live.respond store).1
      ((planBrowse policy (request.rename (renamedTo old new)) pageSize).perform live'.respond
        { store.renameTables (renamedTo old new) with writes }).1 := by
  have htracked : ShadowStore.tableNamed?
      { store.renameTables (renamedTo old new) with writes }
        (request.rename (renamedTo old new)).table =
      (store.tableNamed? request.table).map (·.rename (renamedTo old new)) :=
    store.tableNamed?_renameTables old hrows hrequest
  rw [perform_planBrowse, perform_planBrowse, htracked]
  cases hrow : store.tableNamed? request.table with
  | none => exact .invalid (.unknownTable request.table)
  | some row =>
    have hname : row.name ≠ new := (ShadowStore.mem_of_tableNamed? hrow).2 ▸ hrequest
    have hlabelled := ShadowStore.labelled_renameTables old hrows (hkeys row.name)
    rw [← hlive.foreignKeys row.name hname] at hlabelled
    have hcompiled := BrowseQuery.renamed_compile (ρ := renamedTo old new) request
      (store.ordered policy row) (store.labelled (live.foreignKeys row.name)) pageSize
    rw [← hlabelled] at hcompiled
    exact hcompiled

/-! ## Catalogs in memory -/

/-- What a database promises of its catalog. -/
structure LiveCatalog.Proper (catalog : LiveCatalog) : Prop where
  physicalIds : catalog.entries.Pairwise (·.table.physicalId ≠ ·.table.physicalId)
  names : catalog.entries.Pairwise (·.table.name ≠ ·.table.name)
  positions : ∀ entry ∈ catalog.entries, entry.columns.Pairwise (·.position ≠ ·.position)
  /-- Foreign keys go from table to table. -/
  foreignKeys : ∀ key ∈ catalog.foreignKeys,
    key.referencingTable ∈ catalog.entries.map (·.table.name) ∧
      key.referencedTable ∈ catalog.entries.map (·.table.name)

/-- Without faults, a pass is made as planned. -/
theorem World.Calm.syncPass {world : World} (h : world.Calm) (policy : OrderPolicy)
    (hkeyed : world.store.WellKeyed) :
    ∃ report later,
      (ShadowCatalog.syncPass policy).perform World.respond world = (.ok report, later) ∧
      report.tablesSkipped = [] ∧ later.live = world.live ∧ later.Calm ∧
      later.store = world.store.applyAll (passPlan policy world.view world.store) := by
  obtain ⟨hrun, hlive, hcalm⟩ := h.run (ShadowCatalog.syncPass policy).run
  have hpass := (syncPass_respond policy world.view hkeyed).1
  obtain ⟨houtcome, hstore⟩ := Prod.mk.inj (hrun.trans hpass)
  exact ⟨_, _, Prod.ext houtcome rfl, tablesSkipped_countingAll {} _, hlive, hcalm, hstore⟩

theorem World.Calm.view_eq {world later : World} (h : world.Calm) (hlater : later.Calm)
    (hlive : later.live = world.live) : later.view = world.view := by
  rw [view, view, hlive, h.liveListing, hlater.liveListing]

/-- Without faults, a page is planned from the catalogs. -/
theorem World.Calm.planBrowse {world : World} (h : world.Calm) (policy : OrderPolicy)
    (request : BrowseRequest) (pageSize : Int) :
    ((ShadowCatalog.planBrowse policy request pageSize).perform World.respond world).1 =
      ((ShadowCatalog.planBrowse policy request pageSize).perform world.view.respond
        world.store).1 :=
  congrArg Prod.fst (h.run (ShadowCatalog.planBrowse policy request pageSize).run).1

/-- Of two passes, the first leaves out no table, and a table takes a name that no table
    has before the second. Neither does that pass leave out a table, and after it a request
    comes to what it came to before, under the new name of the table. The old name is
    unknown. -/
theorem planBrowse_of_renameTable {world : World} {policy : OrderPolicy} (hpolicy : policy.Stable)
    (hcalm : world.Calm) (hproper : world.live.Proper) (hreach : world.store.Reachable)
    (hold : old ∈ world.live.entries.map (·.table.name))
    (hnew : new ∉ world.live.entries.map (·.table.name)) :
    ∃ report first report' second,
      (syncPass policy).perform World.respond world = (.ok report, first) ∧
      report.tablesSkipped = [] ∧
      (syncPass policy).perform World.respond
        { first with live := first.live.renameTable old new } = (.ok report', second) ∧
      report'.tablesSkipped = [] ∧
      ∀ (planner : OrderPolicy) (request : BrowseRequest) (pageSize : Int),
        let outcome world request :=
          ((planBrowse planner request pageSize).perform World.respond world).1
        (request.table ≠ new → BrowseQuery.RenamedOutcome (renamedTo old new)
          (outcome first request) (outcome second (request.rename (renamedTo old new)))) ∧
        (request.table = old →
          outcome second request = .error (.validation (.unknownTable old))) := by
  have hkeyed := hreach.wellKeyed
  obtain ⟨report, first, hfirst, hskipped, hsame, hcalm₁, hstore⟩ := hcalm.syncPass policy hkeyed
  rw [← hcalm.view_eq hcalm₁ hsame] at hstore
  rw [← hsame] at hproper hold hnew
  have htables : first.view.tables.map (·.name) = first.live.entries.map (·.table.name) := by
    rw [World.view, hcalm₁.liveListing, Option.getD_none, List.map_map]
    rfl
  -- The first pass settles the catalog, and the second one renames the rows of the table.
  have hkeyed₁ : first.store.WellKeyed := hstore ▸ hkeyed.applyAll _
  have hsettled : first.store.Settled policy first.view :=
    hstore ▸ settled_applyAll_passPlan hpolicy _ hkeyed
  have hdistinct : first.view.Distinct := by
    refine World.view_distinct ?_ hproper.positions
    rw [World.view, hcalm₁.liveListing]
    exact List.pairwise_map.2 hproper.physicalIds
  have hcalm₂ : World.Calm { first with live := first.live.renameTable old new } :=
    ⟨hcalm₁.faults, hcalm₁.liveListing, hcalm₁.failingTables, hcalm₁.listingFails⟩
  have hlive : first.view.RenamedTable old new
      { first with live := first.live.renameTable old new }.view :=
    World.renamedTable_renameTable hcalm₁.liveListing hproper.names
      (fun entry hentry heq => hnew (heq ▸ List.mem_map_of_mem hentry))
      (fun key hkey heq => hnew (heq ▸ (hproper.foreignKeys key hkey).1))
  rw [← htables] at hnew
  obtain ⟨report', second, hsecond, hskipped', hsame', hcalm₃, hstore'⟩ :=
    hcalm₂.syncPass policy hkeyed₁
  obtain ⟨writes, hrenamed⟩ :=
    applyAll_passPlan_of_renamedTable hlive hsettled hkeyed₁ hdistinct hnew
  rw [hrenamed] at hstore'
  have hkeys : ∀ name, ∀ key ∈ first.view.foreignKeys name, key.referencedTable ≠ new :=
    fun name key hkey heq =>
      hnew (htables ▸ heq ▸ (hproper.foreignKeys key (List.mem_filter.1 hkey).1).2)
  have hunknown : second.store.tableNamed? old = none := by
    rw [hstore']
    exact first.store.tableNamed?_renameTables_old (ne_of_mem_of_not_mem (htables ▸ hold) hnew)
  refine ⟨report, first, report', second, hfirst, hskipped, hsecond, hskipped', ?_⟩
  intro planner request pageSize
  dsimp only
  rw [hcalm₁.planBrowse, hcalm₃.planBrowse, hcalm₃.planBrowse, hcalm₂.view_eq hcalm₃ hsame']
  refine ⟨fun hrequest => ?_, fun hrequest => ?_⟩
  · rw [hstore']
    exact renamedOutcome_planBrowse hlive (fun row hrow => hsettled.name_ne hnew hrow) hkeys
      planner hrequest pageSize writes
  · rw [perform_planBrowse, hrequest, hunknown]

/-- Orders that refer twice to users, who refer to each other. The users are shown in an
    order of their own and labelled by their mail addresses. -/
def staffed : World where
  live.entries := [
    ⟨⟨1, "users"⟩, [⟨1, "id", "integer", false, none, true, none⟩,
      ⟨2, "manager_id", "integer", true, none, false, none⟩,
      ⟨3, "email", "citext", true, none, false, none⟩]⟩,
    ⟨⟨2, "orders"⟩, [⟨1, "id", "integer", false, none, true, none⟩,
      ⟨2, "owner_id", "integer", true, none, false, none⟩,
      ⟨3, "buyer_id", "integer", true, none, false, none⟩]⟩]
  live.foreignKeys := [⟨"users", "manager_id", "users", "id", none⟩,
    ⟨"orders", "owner_id", "users", "id", none⟩, ⟨"orders", "buyer_id", "users", "id", none⟩]
  store := ShadowStore.applyAll {} [
    .insertTable "people" 1,
    .insertColumn 1 ⟨2, "boss", "integer", true, none, false, none⟩,
    .insertColumn 1 ⟨1, "id", "integer", false, none, true, none⟩,
    .saveLayout 1 (.ofList [1, 2]) [2, 1], .setLabelColumn 1 (some "email")]

/-- The users take the name by which they were joined to the orders for the second time. -/
theorem planBrowse_of_renameTable_users :
    ∃ report first report' second,
      (syncPass DisplayOrder.merge).perform World.respond staffed = (.ok report, first) ∧
      (syncPass DisplayOrder.merge).perform World.respond
        { first with live := first.live.renameTable "users" "users_2" } =
          (.ok report', second) ∧
      (∀ request : BrowseRequest, request.table ∈ ["users", "orders"] →
        BrowseQuery.RenamedOutcome (renamedTo "users" "users_2")
          ((planBrowse DisplayOrder.merge request 50).perform World.respond first).1
          ((planBrowse DisplayOrder.merge (request.rename (renamedTo "users" "users_2")) 50).perform
            World.respond second).1) ∧
      ((planBrowse DisplayOrder.merge { table := "users" } 50).perform World.respond second).1 =
        .error (.validation (.unknownTable "users")) := by
  have hproper : staffed.live.Proper := ⟨by decide, by decide, by decide, by decide⟩
  have hreach : staffed.store.Reachable := ShadowStore.Reachable.empty.applyAll _
  have hold : "users" ∈ staffed.live.entries.map (·.table.name) := by decide
  have hnew : "users_2" ∉ staffed.live.entries.map (·.table.name) := by decide
  obtain ⟨report, first, report', second, hfirst, -, hsecond, -, hplanned⟩ :=
    planBrowse_of_renameTable DisplayOrder.merge_stable
      (⟨rfl, rfl, rfl, rfl⟩ : staffed.Calm) hproper hreach hold hnew
  refine ⟨report, first, report', second, hfirst, hsecond, fun request hrequest => ?_, ?_⟩
  · refine (hplanned _ request 50).1 fun heq => ?_
    rw [heq] at hrequest
    exact absurd hrequest (by decide)
  · exact (hplanned _ { table := "users" } 50).2 rfl

end ShadowCatalog
