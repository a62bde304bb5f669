import Mathlib.Data.List.Find
import Mathlib.Data.List.Nodup
import Mathlib.Tactic.Common
import ShadowCatalog.Proofs.Browse.Renaming
import ShadowCatalog.Proofs.Memory.World
import ShadowCatalog.Proofs.Reconcile.Convergence
import ShadowCatalog.Proofs.Reconcile.Stability

/-!
# A pass after a table was renamed

When a table takes a name that no table has, the live catalog is as before, with that one
name in place of the other (`LiveView.RenamedTable`, `World.renamedTable_renameTable`). If
the shadow catalog was settled, all that a pass then has to do is to rename the rows of the
table, of which there may be several: no step after the renames finds anything to change,
nor do the columns of any table (`applyAll_passPlan_of_renamedTable`).
-/

namespace ShadowCatalog

variable {old new : String}

/-- The name of a table after `old` took the name `new`. -/
def renamedTo (old new name : String) : String := if name = old then new else name

/-- Names other than the new one stay apart. -/
theorem renamedTo_eq_iff {name other : String} (hname : name ≠ new) (hother : other ≠ new) :
    renamedTo old new name = renamedTo old new other ↔ name = other := by
  unfold renamedTo
  split <;> split <;> simp_all [eq_comm]

theorem renamedTo_ne (hne : old ≠ new) (name : String) : renamedTo old new name ≠ old := by
  unfold renamedTo
  split
  · exact hne.symm
  · assumption

section

variable (ρ : String → String)

/-- The table under its new name. -/
def LiveTable.rename (table : LiveTable) : LiveTable := { table with name := ρ table.name }

/-- The table under its new name, and its columns. -/
def LiveEntry.rename (entry : LiveEntry) : LiveEntry :=
  { entry with table := entry.table.rename ρ }

/-- The row of a table under its new name. -/
def TrackedTable.rename (row : TrackedTable) : TrackedTable := { row with name := ρ row.name }

/-- The rows of all tables under their new names. -/
def ShadowStore.renameTables (store : ShadowStore) : ShadowStore :=
  { store with tables := store.tables.map (·.rename ρ) }

end

/-- A live catalog in which the table `old` took the name `new`. -/
structure LiveView.RenamedTable (old new : String) (before after : LiveView) : Prop where
  tables : after.tables = before.tables.map (·.rename (renamedTo old new))
  columns : ∀ name ≠ new, after.columns (renamedTo old new name) = before.columns name
  foreignKeys : ∀ name ≠ new, after.foreignKeys (renamedTo old new name) =
    (before.foreignKeys name).map (·.rename (renamedTo old new))

/-! ## Catalogs in memory -/

namespace LiveCatalog

variable {catalog : LiveCatalog}

/-- Where names differ, the first table of a name is the only one. -/
theorem changeFirst_eq_map {entries : List LiveEntry}
    (hnames : entries.Pairwise (·.table.name ≠ ·.table.name)) (name : String)
    (change : LiveEntry → LiveEntry) :
    changeFirst name change entries =
      entries.map fun entry => if entry.table.name = name then change entry else entry := by
  induction entries with
  | nil => rfl
  | cons entry rest ih =>
    rw [List.pairwise_cons] at hnames
    rw [changeFirst, List.map_cons]
    split
    · next hname =>
      have hrest : rest.map (fun other => if other.table.name = name then change other else other) =
          rest := by
        refine (List.map_congr_left fun other hother => if_neg fun heq => ?_).trans (List.map_id _)
        exact hnames.1 other hother (hname.trans heq.symm)
      rw [hrest]
    · rw [ih hnames.2]

theorem entries_renameTable (hnames : catalog.entries.Pairwise (·.table.name ≠ ·.table.name)) :
    (catalog.renameTable old new).entries = catalog.entries.map (·.rename (renamedTo old new)) := by
  rw [renameTable, changeFirst_eq_map hnames]
  refine List.map_congr_left fun entry _ => ?_
  rw [LiveEntry.rename, LiveTable.rename, renamedTo]
  split <;> rfl

theorem find?_renameTable (hnames : catalog.entries.Pairwise (·.table.name ≠ ·.table.name))
    (hnew : ∀ entry ∈ catalog.entries, entry.table.name ≠ new) {name : String}
    (hname : name ≠ new) :
    (catalog.renameTable old new).entries.find? (·.table.name = renamedTo old new name) =
      (catalog.entries.find? (·.table.name = name)).map (·.rename (renamedTo old new)) := by
  rw [entries_renameTable hnames, List.find?_map]
  refine congrArg _ (List.find?_congr fun entry hentry => ?_)
  exact decide_eq_decide.2 (renamedTo_eq_iff (hnew entry hentry) hname)

theorem foreignKeysOf_renameTable (hnew : ∀ key ∈ catalog.foreignKeys, key.referencingTable ≠ new)
    {name : String} (hname : name ≠ new) :
    (catalog.renameTable old new).foreignKeysOf (renamedTo old new name) =
      (catalog.foreignKeysOf name).map (·.rename (renamedTo old new)) := by
  have hkeys : (catalog.renameTable old new).foreignKeys =
      catalog.foreignKeys.map (·.rename (renamedTo old new)) := rfl
  rw [foreignKeysOf, hkeys, List.filter_map]
  refine congrArg _ (List.filter_congr fun key hkey => ?_)
  exact decide_eq_decide.2 (renamedTo_eq_iff (hnew key hkey) hname)

end LiveCatalog

/-- A name that no table has is taken by a table of catalogs in memory. -/
theorem World.renamedTable_renameTable {world : World} (hlisting : world.liveListing = none)
    (hnames : world.live.entries.Pairwise (·.table.name ≠ ·.table.name))
    (hnew : ∀ entry ∈ world.live.entries, entry.table.name ≠ new)
    (hkeys : ∀ key ∈ world.live.foreignKeys, key.referencingTable ≠ new) :
    world.view.RenamedTable old new
      { world with live := world.live.renameTable old new }.view where
  tables := by
    simp only [view, hlisting, Option.getD_none, LiveCatalog.entries_renameTable hnames,
      List.map_map]
    rfl
  columns name hname := by
    simp only [view, LiveCatalog.find?_renameTable hnames hnew hname]
    cases world.live.entries.find? (·.table.name = name) <;> rfl
  foreignKeys name hname := LiveCatalog.foreignKeysOf_renameTable hkeys hname

/-! ## The pass -/

section

variable {policy : OrderPolicy} {live live' : LiveView} {store : ShadowStore}
  (hlive : live.RenamedTable old new live') (hnew : new ∉ live.tables.map (·.name))
  (h : store.Settled policy live)
include h

theorem ShadowStore.Settled.name_ne (hnew : new ∉ live.tables.map (·.name)) {row : TrackedTable}
    (hrow : row ∈ store.tables) : row.name ≠ new := by
  rintro rfl
  have hmem := h.registry.mem_asLive_iff.1 (List.mem_map_of_mem hrow)
  exact hnew (List.mem_map_of_mem (f := LiveTable.name) hmem)

include hlive

/-- With its rows renamed, the shadow catalog is settled for the new names. -/
theorem settled_renameTables (hnew : new ∉ live.tables.map (·.name)) :
    (store.renameTables (renamedTo old new)).Settled policy live' := by
  have hrename (row : TrackedTable) (table : LiveTable) (hsame : row.asLive = table) :
      (row.rename (renamedTo old new)).asLive = table.rename (renamedTo old new) := hsame ▸ rfl
  refine ⟨⟨fun row' hrow' => ?_, fun table' htable' => ?_⟩, fun row' hrow' => ?_⟩
  · obtain ⟨row, hrow, rfl⟩ := List.mem_map.1 hrow'
    obtain ⟨table, htable, hsame⟩ := List.any_eq_true.1 (h.registry.isLive row hrow)
    rw [hlive.tables]
    refine List.any_eq_true.2 ⟨_, List.mem_map_of_mem htable, ?_⟩
    exact Registry.sameTable_iff_asLive.2 (hrename _ _ (Registry.sameTable_iff_asLive.1 hsame))
  · rw [hlive.tables] at htable'
    obtain ⟨table, htable, rfl⟩ := List.mem_map.1 htable'
    obtain ⟨row, hrow, hsame⟩ := List.any_eq_true.1 (h.registry.tracked table htable)
    refine List.any_eq_true.2 ⟨_, List.mem_map_of_mem hrow, ?_⟩
    exact Registry.sameTable_iff_asLive.2 (hrename _ _ (Registry.sameTable_iff_asLive.1 hsame))
  · obtain ⟨row, hrow, rfl⟩ := List.mem_map.1 hrow'
    obtain ⟨hdescribed, hids, horder⟩ := h.columns row hrow
    refine ⟨?_, hids, horder⟩
    rw [TrackedTable.rename, hlive.columns _ (h.name_ne hnew hrow)]
    exact hdescribed

/-- The first step of a pass renames the rows. -/
theorem stage_renames_of_renamedTable (hkeyed : store.WellKeyed)
    (hids : live.tables.Pairwise (·.physicalId ≠ ·.physicalId)) :
    ∃ writes, Registry.stage live'.tables store Registry.renames =
      { store.renameTables (renamedTo old new) with writes } := by
  have hids' : live'.tables.Pairwise (·.physicalId ≠ ·.physicalId) := by
    rw [hlive.tables]
    exact List.pairwise_map.2 hids
  have hrows : store.tables.map (Registry.renamed live'.tables) =
      store.tables.map (·.rename (renamedTo old new)) := by
    refine List.map_congr_left fun row hrow => ?_
    have hmem := h.registry.mem_asLive_iff.1 (List.mem_map_of_mem hrow)
    have hat : Registry.liveAt? live'.tables row.physicalId =
        some (row.asLive.rename (renamedTo old new)) := by
      refine (Registry.liveAt?_eq_some_iff hids').2 ⟨?_, rfl⟩
      rw [hlive.tables]
      exact List.mem_map_of_mem hmem
    rw [Registry.renamed, hat]
    rfl
  refine ⟨store.writes + (Registry.renames live'.tables store.tables).length, ?_⟩
  rw [Registry.stage, (Registry.applyAll_renames hkeyed live'.tables).2, hrows]
  rfl

/-- After a table was renamed, a pass renames its rows and changes nothing else. -/
theorem applyAll_passPlan_of_renamedTable (hkeyed : store.WellKeyed) (hdistinct : live.Distinct)
    (hnew : new ∉ live.tables.map (·.name)) :
    ∃ writes, store.applyAll (passPlan policy live' store) =
      { store.renameTables (renamedTo old new) with writes } := by
  obtain ⟨writes, hstage⟩ := stage_renames_of_renamedTable hlive h hkeyed hdistinct.physicalIds
  have hkeyed' := Registry.wellKeyed_stage hkeyed live'.tables Registry.renames
  have hids' : live'.tables.Pairwise (·.physicalId ≠ ·.physicalId) := by
    rw [hlive.tables]
    exact List.pairwise_map.2 hdistinct.physicalIds
  obtain ⟨hregistry, hcolumns⟩ := settled_renameTables hlive h hnew
  rw [hstage] at hkeyed'
  -- The steps after the first one find a settled registry.
  have hplan : Registry.plan live'.tables store = Registry.renames live'.tables store.tables := by
    have hfirst : Registry.plan live'.tables store =
        Registry.renames live'.tables store.tables ++
          Registry.planOf live'.tables [Registry.refreshes, Registry.removals, Registry.insertions]
            (Registry.stage live'.tables store Registry.renames) := rfl
    rw [hfirst, Registry.planOf_eq_nil, List.append_nil]
    rw [hstage]
    exact fun decide hdecide =>
      Registry.decide_of_settled hids' hregistry decide (List.mem_cons_of_mem _ hdecide)
  have hafter : store.applyAll (Registry.plan live'.tables store) =
      { store.renameTables (renamedTo old new) with writes } := by
    rw [hplan]
    exact hstage
  -- The columns of each table are settled as well.
  have hquiet : ∀ row ∈ (store.renameTables (renamedTo old new)).tables,
      Columns.plan policy (live'.columns row.name) row
        { store.renameTables (renamedTo old new) with writes } = [] := by
    intro row' hrow'
    refine Columns.plan_of_settled hkeyed' hrow' ?_ (hcolumns row' hrow')
    obtain ⟨row, hrow, rfl⟩ := List.mem_map.1 hrow'
    rw [TrackedTable.rename, hlive.columns _ (h.name_ne hnew hrow)]
    exact hdistinct.positions _
  refine ⟨writes, ?_⟩
  rw [passPlan, ShadowStore.applyAll_append, hafter]
  exact congrArg _ (eachPlan_eq_nil hquiet)

end

end ShadowCatalog
