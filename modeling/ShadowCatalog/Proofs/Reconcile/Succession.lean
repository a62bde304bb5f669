import Mathlib.Data.Finset.Image
import ShadowCatalog.Proofs.Reconcile.Settled

/-!
# Which tracked tables go on

The steps of the registry decide together which tracked tables go on, and as
which live tables (`Registry.GoesOnAs`):

* a tracked table whose physical id is live goes on as the table of that id,
  whatever its name is by now;
* of the other tracked tables of a name, the one tracked first goes on as the
  live table of that name, if no tracked table held the physical id of it.

`inTurn_succession`: these keep their ids, their columns and their presentation,
all others are forgotten with their columns, and the live tables as which no
tracked table goes on are tracked anew (`Registry.Succession`). Renames in a
chain or in a circle are no exception.
-/

namespace ShadowCatalog.Registry

/-- A tracked table goes on as a live one, where `rows` are tracked. -/
def GoesOnAs (live : List LiveTable) (rows : List TrackedTable) (row : TrackedTable)
    (table : LiveTable) : Prop :=
  table ∈ live ∧
    (table.physicalId = row.physicalId ∨
      (∀ other ∈ live, other.physicalId ≠ row.physicalId) ∧
        table.name = row.name ∧
        (∀ other ∈ rows, other.physicalId ≠ table.physicalId) ∧
        ∀ other ∈ rows, (∀ t ∈ live, t.physicalId ≠ other.physicalId) →
          other.name = row.name → row.tableId ≤ other.tableId)

instance (live : List LiveTable) (rows : List TrackedTable) (row : TrackedTable)
    (table : LiveTable) : Decidable (GoesOnAs live rows row table) :=
  inferInstanceAs (Decidable (_ ∧ _))

/-- The live tables as which no tracked table goes on. -/
def newcomers (live : List LiveTable) (rows : List TrackedTable) : List LiveTable :=
  live.filter fun table => ¬∃ row ∈ rows, GoesOnAs live rows row table

/-- The tracked tables that go on, each under the name and the physical id of its
    live table. -/
def survivors (live : List LiveTable) (rows : List TrackedTable) : List TrackedTable :=
  rows.filterMap fun row =>
    (live.find? (GoesOnAs live rows row ·)).map fun table =>
      { row with name := table.name, physicalId := table.physicalId }

/-- What the steps of the registry make of a store. -/
structure Succession (live : List LiveTable) (before after : ShadowStore) : Prop where
  /-- The tables that stay are those that go on. -/
  stays_iff : ∀ row ∈ before.tables,
    (∃ kept ∈ after.tables, kept.tableId = row.tableId) ↔
      ∃ table, GoesOnAs live before.tables row table
  /-- A table that goes on takes the name and the physical id of the live table,
      and keeps all else. -/
  goesOn : ∀ row ∈ before.tables, ∀ table, GoesOnAs live before.tables row table →
    { row with name := table.name, physicalId := table.physicalId } ∈ after.tables
  /-- A table keeps its id and its presentation when it is renamed. -/
  renamed : ∀ row ∈ before.tables, ∀ table ∈ live, table.physicalId = row.physicalId →
    { row with name := table.name } ∈ after.tables
  /-- After the tables that stay, in their order, come the new ones, in the order
      of the live tables. -/
  tables : after.tables =
    survivors live before.tables ++ freshRows before.lastTableId (newcomers live before.tables)
  /-- The ids of new tables were never given before. -/
  fresh : ∀ row ∈ freshRows before.lastTableId (newcomers live before.tables),
    before.lastTableId < row.tableId ∧ ∀ old ∈ before.tables, old.tableId < row.tableId
  /-- The columns of tables that do not go on are forgotten, and no others. -/
  columns : after.columns = before.columns.filter fun column =>
    ∀ row ∈ before.tables, row.tableId = column.tableId →
      ∃ table ∈ live, GoesOnAs live before.tables row table
  lastTableId : after.lastTableId =
    before.lastTableId + (newcomers live before.tables).length
  lastColumnId : after.lastColumnId = before.lastColumnId

/-! ## Refreshes, row by row -/

/-- A row after the refreshes, where those of `rows` are refreshed, and `held` is
    held by tracked tables: of the rows of a name, the first takes the physical id
    of the live table. -/
def refreshed (live : List LiveTable) (held : List PhysicalId) (rows : List TrackedTable)
    (row : TrackedTable) : TrackedTable :=
  match live.find? (·.name = row.name) with
  | some table =>
    if table.physicalId ∉ held ∧
        ∀ other ∈ rows, other.name = row.name → row.tableId ≤ other.tableId then
      { row with physicalId := table.physicalId }
    else row
  | none => row

theorem refreshed_of_none {live : List LiveTable} {held : List PhysicalId}
    {rows : List TrackedTable} {row : TrackedTable}
    (h : live.find? (·.name = row.name) = none) : refreshed live held rows row = row := by
  rw [refreshed, h]

theorem refreshed_of_some {live : List LiveTable} {held : List PhysicalId}
    {rows : List TrackedTable} {row : TrackedTable} {table : LiveTable}
    (h : live.find? (·.name = row.name) = some table) :
    refreshed live held rows row =
      if table.physicalId ∉ held ∧
          ∀ other ∈ rows, other.name = row.name → row.tableId ≤ other.tableId then
        { row with physicalId := table.physicalId }
      else row := by
  rw [refreshed, h]

variable {live : List LiveTable} {rows : List TrackedTable}

theorem refreshed_congr {held held' : List PhysicalId} {rows' : List TrackedTable}
    {row : TrackedTable}
    (h : ∀ table, live.find? (·.name = row.name) = some table →
      ((table.physicalId ∉ held ∧
          ∀ other ∈ rows, other.name = row.name → row.tableId ≤ other.tableId) ↔
        table.physicalId ∉ held' ∧
          ∀ other ∈ rows', other.name = row.name → row.tableId ≤ other.tableId)) :
    refreshed live held rows row = refreshed live held' rows' row := by
  cases hfind : live.find? (·.name = row.name) with
  | none => rw [refreshed_of_none hfind, refreshed_of_none hfind]
  | some table =>
    rw [refreshed_of_some hfind, refreshed_of_some hfind, if_congr (h table hfind) rfl rfl]

/-- Each row can be refreshed on its own: what the rows before it take is taken
    from rows of the same name only. -/
theorem refreshedFrom_eq_map (hids : live.Pairwise (·.physicalId ≠ ·.physicalId))
    (hrows : rows.Pairwise fun a b => a.tableId < b.tableId) (held : List PhysicalId) :
    refreshedFrom live held rows = rows.map (refreshed live held rows) := by
  induction rows generalizing held with
  | nil => rfl
  | cons row rows ih =>
    rw [List.pairwise_cons] at hrows
    -- The first row matters only to rows of its name.
    have hother {other : TrackedTable} (hne : other.name ≠ row.name) :
        (∀ third ∈ row :: rows, third.name = other.name → other.tableId ≤ third.tableId) ↔
          ∀ third ∈ rows, third.name = other.name → other.tableId ≤ third.tableId := by
      rw [List.forall_mem_cons]
      exact and_iff_right fun h => absurd h.symm hne
    rw [refreshedFrom, List.map_cons]
    cases hfind : live.find? (·.name = row.name) with
    | none =>
      rw [refreshed_of_none hfind]
      refine congrArg _ ((ih hrows.2 held).trans (List.map_congr_left fun other _ => ?_))
      refine refreshed_congr ?_
      intro table htable
      have hne : other.name ≠ row.name := fun h => by rw [h, hfind] at htable; cases htable
      rw [hother hne]
    | some current =>
      rw [refreshed_of_some hfind]
      dsimp only
      by_cases hheld : current.physicalId ∈ held
      · rw [if_pos hheld, if_neg fun h => h.1 hheld]
        refine congrArg _ ((ih hrows.2 held).trans (List.map_congr_left fun other _ => ?_))
        refine refreshed_congr ?_
        intro table htable
        by_cases hname : other.name = row.name
        · rw [hname, hfind] at htable
          cases htable
          simp only [hheld, not_true_eq_false, false_and]
        · rw [hother hname]
      · have hfirst : ∀ other ∈ row :: rows, other.name = row.name → row.tableId ≤ other.tableId :=
          List.forall_mem_cons.2 ⟨fun _ => Int.le_refl _,
            fun other ho _ => Int.le_of_lt (hrows.1 other ho)⟩
        rw [if_neg hheld, if_pos ⟨hheld, hfirst⟩]
        refine congrArg _ ((ih hrows.2 _).trans (List.map_congr_left fun other ho => ?_))
        refine refreshed_congr ?_
        intro table htable
        by_cases hname : other.name = row.name
        -- The first row took the id, and was tracked before.
        · rw [hname, hfind] at htable
          cases htable
          have hlater : ¬other.tableId ≤ row.tableId := Int.not_le.2 (hrows.1 other ho)
          simp [hname, hlater]
        -- The first row took the id of another table.
        · have hne : table.physicalId ≠ current.physicalId := fun heq =>
            hname (by
              have := List.inj_on_of_nodup_map (List.pairwise_map.2 hids)
                (mem_of_find?_name htable).1 (mem_of_find?_name hfind).1 heq
              rw [← (mem_of_find?_name htable).2, this, (mem_of_find?_name hfind).2])
          rw [hother hname, List.mem_cons, not_or, and_iff_right hne]

/-! ## Renames and refreshes together -/

theorem renamed_physicalId (live : List LiveTable) (row : TrackedTable) :
    (renamed live row).physicalId = row.physicalId := by
  rw [renamed]
  split <;> rfl

theorem renamed_tableId (live : List LiveTable) (row : TrackedTable) :
    (renamed live row).tableId = row.tableId := by
  rw [renamed]
  split <;> rfl

theorem renamed_of_live (hids : live.Pairwise (·.physicalId ≠ ·.physicalId))
    {row : TrackedTable} {table : LiveTable} (hlive : table ∈ live)
    (hid : table.physicalId = row.physicalId) :
    renamed live row = { row with name := table.name } := by
  rw [renamed, (liveAt?_eq_some_iff hids).2 ⟨hlive, hid⟩]

theorem renamed_of_not_live {row : TrackedTable}
    (h : ∀ table ∈ live, table.physicalId ≠ row.physicalId) : renamed live row = row := by
  have hnone : liveAt? live row.physicalId = none :=
    List.find?_eq_none.2 fun table htable => by simpa using h table (List.mem_reverse.1 htable)
  rw [renamed, hnone]

/-- A row after renames and refreshes. -/
def updated (live : List LiveTable) (rows : List TrackedTable) (row : TrackedTable) :
    TrackedTable :=
  refreshed live (rows.map (·.physicalId)) (rows.map (renamed live)) (renamed live row)

theorem updated_tableId (live : List LiveTable) (rows : List TrackedTable) (row : TrackedTable) :
    (updated live rows row).tableId = row.tableId := by
  rw [updated, ← renamed_tableId live row, refreshed]
  split
  · split <;> rfl
  · rfl

/-- A row of a live physical id is that live table after the renames. It is not
    refreshed, as it holds the id itself. -/
theorem updated_of_live (hids : live.Pairwise (·.physicalId ≠ ·.physicalId))
    (hnames : live.Pairwise (·.name ≠ ·.name)) {row : TrackedTable} (hrow : row ∈ rows)
    {table : LiveTable} (hlive : table ∈ live) (hid : table.physicalId = row.physicalId) :
    updated live rows row = { row with name := table.name } := by
  rw [updated, renamed_of_live hids hlive hid,
    refreshed_of_some ((find?_name_eq_some_iff hnames).2 ⟨hlive, rfl⟩)]
  refine if_neg fun h => h.1 ?_
  rw [hid]
  exact List.mem_map_of_mem hrow

/-- A row of a physical id that is not live can go on only as the live table of its
    name. -/
theorem GoesOnAs.find?_name (hnames : live.Pairwise (·.name ≠ ·.name)) {row : TrackedTable}
    (hdead : ∀ table ∈ live, table.physicalId ≠ row.physicalId) {table : LiveTable}
    (h : GoesOnAs live rows row table) : live.find? (·.name = row.name) = some table := by
  obtain ⟨hlive, hid | ⟨_, hname, _, _⟩⟩ := h
  · exact absurd hid (hdead table hlive)
  · exact (find?_name_eq_some_iff hnames).2 ⟨hlive, hname⟩

/-- A row of a physical id that is not live goes on exactly if it is refreshed. -/
theorem goesOnAs_iff_of_not_live (rows : List TrackedTable)
    (hids : live.Pairwise (·.physicalId ≠ ·.physicalId))
    (hnames : live.Pairwise (·.name ≠ ·.name)) {row : TrackedTable}
    (hdead : ∀ table ∈ live, table.physicalId ≠ row.physicalId) {table : LiveTable}
    (hfind : live.find? (·.name = row.name) = some table) :
    GoesOnAs live rows row table ↔
      table.physicalId ∉ rows.map (·.physicalId) ∧
        ∀ other ∈ rows.map (Registry.renamed live), other.name = row.name →
          row.tableId ≤ other.tableId := by
  obtain ⟨hlive, hname⟩ := mem_of_find?_name hfind
  have hfree : table.physicalId ∉ rows.map (·.physicalId) ↔
      ∀ other ∈ rows, other.physicalId ≠ table.physicalId := by
    simp [List.mem_map]
  rw [GoesOnAs, and_iff_right hlive, or_iff_right (hdead table hlive), and_iff_right hdead,
    and_iff_right hname, hfree, List.forall_mem_map]
  refine and_congr_right fun hfree => forall₂_congr ?_
  intro other hother
  by_cases hdead' : ∀ t ∈ live, t.physicalId ≠ other.physicalId
  · rw [renamed_of_not_live hdead']
    exact forall_prop_of_true hdead'
  -- The renames give no live table's row the name, as the one of that name is not
  -- tracked.
  · refine iff_of_true (fun h => absurd h hdead') ?_
    intro hsame
    push Not at hdead'
    obtain ⟨t, ht, hid⟩ := hdead'
    rw [renamed_of_live hids ht hid] at hsame
    have ht' := (find?_name_eq_some_iff hnames).2 ⟨ht, hsame⟩
    rw [hfind, Option.some.injEq] at ht'
    exact absurd (ht' ▸ hid.symm) (hfree other hother)

/-- A row of a physical id that is not live takes one if it goes on, and stays as it
    is if not. -/
theorem updated_of_not_live (rows : List TrackedTable)
    (hids : live.Pairwise (·.physicalId ≠ ·.physicalId))
    (hnames : live.Pairwise (·.name ≠ ·.name)) {row : TrackedTable}
    (hdead : ∀ table ∈ live, table.physicalId ≠ row.physicalId) :
    (∃ table, GoesOnAs live rows row table ∧
      updated live rows row = { row with physicalId := table.physicalId }) ∨
    (∀ table, ¬GoesOnAs live rows row table) ∧ updated live rows row = row := by
  rw [updated, renamed_of_not_live hdead]
  cases hfind : live.find? (·.name = row.name) with
  | none =>
    refine .inr ⟨fun table hgoes => ?_, refreshed_of_none hfind⟩
    rw [hgoes.find?_name hnames hdead] at hfind
    cases hfind
  | some table =>
    have hiff := goesOnAs_iff_of_not_live rows hids hnames hdead hfind
    rw [refreshed_of_some hfind]
    split
    · next h => exact .inl ⟨table, hiff.2 h, rfl⟩
    · next h =>
      refine .inr ⟨fun other hgoes => h (hiff.1 ?_), rfl⟩
      rw [hgoes.find?_name hnames hdead, Option.some.injEq] at hfind
      exact hfind ▸ hgoes

/-- A row that goes on is its live table after renames and refreshes. -/
theorem updated_of_goesOnAs (hids : live.Pairwise (·.physicalId ≠ ·.physicalId))
    (hnames : live.Pairwise (·.name ≠ ·.name)) {row : TrackedTable} (hrow : row ∈ rows)
    {table : LiveTable} (h : GoesOnAs live rows row table) :
    updated live rows row = { row with name := table.name, physicalId := table.physicalId } := by
  by_cases hdead : ∀ t ∈ live, t.physicalId ≠ row.physicalId
  · have hfind := h.find?_name hnames hdead
    rcases updated_of_not_live rows hids hnames hdead with ⟨other, hgoes, heq⟩ | ⟨hnot, _⟩
    · rw [hgoes.find?_name hnames hdead, Option.some.injEq] at hfind
      rw [heq, hfind, (mem_of_find?_name (h.find?_name hnames hdead)).2]
    · exact absurd h (hnot table)
  · obtain hid | ⟨hdead', _⟩ := h.2
    · rw [updated_of_live hids hnames hrow h.1 hid, hid]
    · exact absurd hdead' hdead

/-- After renames and refreshes, the rows that are a live table are those that go
    on as it. -/
theorem sameTable_updated_iff (hids : live.Pairwise (·.physicalId ≠ ·.physicalId))
    (hnames : live.Pairwise (·.name ≠ ·.name)) {row : TrackedTable} (hrow : row ∈ rows)
    {table : LiveTable} (hlive : table ∈ live) :
    sameTable (updated live rows row) table = true ↔ GoesOnAs live rows row table := by
  rw [sameTable_iff]
  constructor
  · rintro ⟨hname, hid⟩
    by_cases hdead : ∀ t ∈ live, t.physicalId ≠ row.physicalId
    · rcases updated_of_not_live rows hids hnames hdead with ⟨other, hgoes, heq⟩ | ⟨_, heq⟩
      · rw [heq] at hid
        rwa [List.inj_on_of_nodup_map (List.pairwise_map.2 hids) hlive hgoes.1 hid]
      · rw [heq] at hid
        exact absurd hid (hdead table hlive)
    · push Not at hdead
      -- The row took the name of the table of its physical id.
      obtain ⟨t, ht, htid⟩ := hdead
      rw [updated_of_live hids hnames hrow ht htid] at hid
      exact ⟨hlive, .inl hid⟩
  · intro hgoes
    rw [updated_of_goesOnAs hids hnames hrow hgoes]
    exact ⟨rfl, rfl⟩

/-! ## The steps together -/

theorem any_sameTable_updated_iff (hids : live.Pairwise (·.physicalId ≠ ·.physicalId))
    (hnames : live.Pairwise (·.name ≠ ·.name)) {row : TrackedTable} (hrow : row ∈ rows) :
    live.any (sameTable (updated live rows row)) = true ↔
      ∃ table ∈ live, GoesOnAs live rows row table := by
  rw [List.any_eq_true]
  exact exists_congr fun table => and_congr_right fun hlive =>
    sameTable_updated_iff hids hnames hrow hlive

/-- The rows that the removals leave are the survivors. -/
theorem filter_updated_eq_survivors (hids : live.Pairwise (·.physicalId ≠ ·.physicalId))
    (hnames : live.Pairwise (·.name ≠ ·.name)) :
    (rows.map (updated live rows)).filter (fun row => live.any (sameTable row)) =
      survivors live rows := by
  rw [← List.filterMap_eq_map, ← List.filterMap_eq_filter, List.filterMap_filterMap]
  refine List.filterMap_congr ?_
  intro row hrow
  rw [Function.comp_apply, Option.bind_some, Option.guard]
  have hany := any_sameTable_updated_iff hids hnames hrow
  cases hfind : live.find? (GoesOnAs live rows row ·) with
  | none =>
    have hnot : ¬∃ table ∈ live, GoesOnAs live rows row table := by
      simpa using List.find?_eq_none.1 hfind
    rw [if_neg (mt hany.1 hnot), Option.map_none]
  | some table =>
    have hgoes : GoesOnAs live rows row table := by simpa using List.find?_some hfind
    rw [if_pos (hany.2 ⟨table, hgoes.1, hgoes⟩), Option.map_some,
      updated_of_goesOnAs hids hnames hrow hgoes]

theorem stage_refreshes_eq {store : ShadowStore} (h : store.WellKeyed)
    (hids : live.Pairwise (·.physicalId ≠ ·.physicalId)) :
    ∃ writes, stage live (stage live store renames) refreshes =
      { store with tables := store.tables.map (updated live store.tables), writes } := by
  have h₁ := wellKeyed_stage h live renames
  have hrefreshed := refreshedFrom_eq_map hids h₁.tables
    ((stage live store renames).tables.map (·.physicalId))
  have h₂ := (applyAll_refreshes h₁ live).2
  rw [hrefreshed] at h₂
  have hrenamed : stage live store renames = _ := (applyAll_renames h live).2
  -- Renames leave the ids that are held as they are.
  have hheld : (store.tables.map (renamed live)).map (·.physicalId) =
      store.tables.map (·.physicalId) := by
    rw [List.map_map]
    exact List.map_congr_left fun row _ => renamed_physicalId live row
  rw [show stage live (stage live store renames) refreshes = _ from h₂, hrenamed]
  dsimp only
  rw [hheld, List.map_map]
  exact ⟨_, rfl⟩

/-- The live tables without a survivor are the newcomers. -/
theorem filter_survivors_eq_newcomers (hids : live.Pairwise (·.physicalId ≠ ·.physicalId))
    (hnames : live.Pairwise (·.name ≠ ·.name)) :
    live.filter (fun table => !(survivors live rows).any (sameTable · table)) =
      newcomers live rows := by
  refine List.filter_congr ?_
  intro table hlive
  rw [Bool.eq_iff_iff, Bool.not_eq_true', Bool.eq_false_iff, decide_eq_true_iff]
  refine not_congr ?_
  rw [← filter_updated_eq_survivors hids hnames, List.any_eq_true]
  constructor
  · rintro ⟨row, hrow, hsame⟩
    obtain ⟨old, hold, rfl⟩ := List.mem_map.1 (List.mem_filter.1 hrow).1
    exact ⟨old, hold, (sameTable_updated_iff hids hnames hold hlive).1 hsame⟩
  · rintro ⟨old, hold, hgoes⟩
    have hsame := (sameTable_updated_iff hids hnames hold hlive).2 hgoes
    refine ⟨_, List.mem_filter.2 ⟨List.mem_map_of_mem hold, ?_⟩, hsame⟩
    exact List.any_eq_true.2 ⟨table, hlive, hsame⟩

/-- The store after the steps, whatever it was. -/
theorem applyAll_plan_eq {store : ShadowStore} (h : store.WellKeyed)
    (hids : live.Pairwise (·.physicalId ≠ ·.physicalId))
    (hnames : live.Pairwise (·.name ≠ ·.name)) :
    ∃ writes, store.applyAll (plan live store) = { store with
      tables := survivors live store.tables ++
        freshRows store.lastTableId (newcomers live store.tables)
      columns := store.columns.filter fun column =>
        ∀ row ∈ store.tables, row.tableId = column.tableId →
          ∃ table ∈ live, GoesOnAs live store.tables row table
      lastTableId := store.lastTableId + (newcomers live store.tables).length
      writes } := by
  obtain ⟨writes, h₂⟩ := stage_refreshes_eq h hids
  have hkeyed := wellKeyed_stage (wellKeyed_stage h live renames) live refreshes
  -- Renames and refreshes keep the ids of rows, by which columns are found.
  have hcolumns (column : TrackedColumn) :
      (∀ row ∈ store.tables.map (updated live store.tables), row.tableId = column.tableId →
          live.any (sameTable row) = true) ↔
        ∀ row ∈ store.tables, row.tableId = column.tableId →
          ∃ table ∈ live, GoesOnAs live store.tables row table := by
    rw [List.forall_mem_map]
    refine forall₂_congr ?_
    intro row hrow
    rw [updated_tableId, any_sameTable_updated_iff hids hnames hrow]
  rw [applyAll_plan, stage_insertions, stage_removals hkeyed, h₂]
  simp only [filter_updated_eq_survivors hids hnames, filter_survivors_eq_newcomers hids hnames,
    hcolumns]
  exact ⟨_, rfl⟩

/-- A table that goes on is among the survivors, as the live table. -/
theorem GoesOnAs.mem_survivors (hids : live.Pairwise (·.physicalId ≠ ·.physicalId))
    (hnames : live.Pairwise (·.name ≠ ·.name)) {row : TrackedTable} (hrow : row ∈ rows)
    {table : LiveTable} (h : GoesOnAs live rows row table) :
    { row with name := table.name, physicalId := table.physicalId } ∈ survivors live rows := by
  rw [← filter_updated_eq_survivors hids hnames, ← updated_of_goesOnAs hids hnames hrow h,
    List.mem_filter]
  exact ⟨List.mem_map_of_mem hrow, (any_sameTable_updated_iff hids hnames hrow).2 ⟨table, h.1, h⟩⟩

/-- A survivor is the row of a table that goes on, as the live table. -/
theorem exists_goesOnAs_of_mem_survivors {row : TrackedTable} (h : row ∈ survivors live rows) :
    ∃ old ∈ rows, ∃ table, GoesOnAs live rows old table ∧
      row = { old with name := table.name, physicalId := table.physicalId } := by
  obtain ⟨old, hold, heq⟩ := List.mem_filterMap.1 h
  obtain ⟨table, hfind, rfl⟩ := Option.map_eq_some_iff.1 heq
  exact ⟨old, hold, table, by simpa using List.find?_some hfind, rfl⟩

theorem succession_applyAll_plan {store : ShadowStore} (h : store.WellKeyed)
    (hids : live.Pairwise (·.physicalId ≠ ·.physicalId))
    (hnames : live.Pairwise (·.name ≠ ·.name)) :
    Succession live store (store.applyAll (plan live store)) := by
  obtain ⟨writes, heq⟩ := applyAll_plan_eq h hids hnames
  have hfresh : ∀ row ∈ freshRows store.lastTableId (newcomers live store.tables),
      store.lastTableId < row.tableId ∧ ∀ old ∈ store.tables, old.tableId < row.tableId :=
    fun row hrow => ⟨(mem_freshRows hrow).1,
      fun old hold => Int.lt_of_le_of_lt (h.tables_le old hold) (mem_freshRows hrow).1⟩
  have hgoesOn : ∀ row ∈ store.tables, ∀ table, GoesOnAs live store.tables row table →
      { row with name := table.name, physicalId := table.physicalId } ∈
        survivors live store.tables ++
          freshRows store.lastTableId (newcomers live store.tables) :=
    fun row hrow table hgoes => List.mem_append_left _ (hgoes.mem_survivors hids hnames hrow)
  rw [heq]
  refine ⟨fun row hrow => ⟨?_, ?_⟩, hgoesOn, fun row hrow table hlive hid => ?_, rfl, hfresh, rfl,
    rfl, rfl⟩
  · rintro ⟨kept, hkept, hid⟩
    rcases List.mem_append.1 hkept with hkept | hkept
    · obtain ⟨old, hold, table, hgoes, rfl⟩ := exists_goesOnAs_of_mem_survivors hkept
      exact ⟨table, h.table_eq hold hrow hid ▸ hgoes⟩
    · exact absurd ((hfresh kept hkept).2 row hrow) (by rw [hid]; exact Int.lt_irrefl _)
  · rintro ⟨table, hgoes⟩
    exact ⟨_, hgoesOn row hrow table hgoes, rfl⟩
  · have := hgoesOn row hrow table ⟨hlive, .inl hid⟩
    rwa [hid] at this

/-- When the steps are done, the tables that go on are tracked under their new
    names and physical ids, and all else of them is kept, the others are forgotten,
    and the live tables that are new are tracked. -/
theorem inTurn_succession {σ : Type} {responder : Responder σ} {state later : σ}
    {report report' : SyncReport} (b : Backing responder)
    (hids : live.Pairwise (·.physicalId ≠ ·.physicalId))
    (hnames : live.Pairwise (·.name ≠ ·.name)) (hreach : (b.store state).Reachable)
    (hdone : (inTurn live steps).perform responder report state = ((.ok (), report'), later)) :
    Succession live (b.store state) (b.store later) := by
  obtain ⟨_, _, hpassage⟩ := (follows_inTurn hreach.wellKeyed live).of_ok hdone
  rw [hpassage.store_eq]
  exact succession_applyAll_plan hreach.wellKeyed hids hnames

/-- Tables `a` and `b` were tracked, and `c` twice. -/
def beforeSwap : ShadowStore :=
  ShadowStore.applyAll {}
    [.insertTable "a" 1, .insertTable "b" 2, .insertTable "c" 3, .insertTable "c" 4]

/-- Then `a` and `b` swapped names, `c` was dropped and made again, and `d` made. -/
def afterSwap : LiveView where
  tables := [⟨1, "b"⟩, ⟨2, "a"⟩, ⟨5, "c"⟩, ⟨6, "d"⟩]
  columns _ := []
  foreignKeys _ := []

theorem succession_afterSwap :
    ∃ report later, (inTurn afterSwap.tables steps).perform afterSwap.respond {} beforeSwap =
        ((.ok (), report), later) ∧
      Succession afterSwap.tables beforeSwap later ∧
      later.tables.map (fun row => (row.tableId, row.name, row.physicalId)) =
        [(1, "b", 1), (2, "a", 2), (3, "c", 5), (5, "d", 6)] := by
  have hreach : beforeSwap.Reachable := ShadowStore.Reachable.empty.applyAll _
  have hdone : (inTurn afterSwap.tables steps).perform afterSwap.respond {} beforeSwap =
    ((.ok (), _), _) := rfl
  refine ⟨_, _, hdone, ?_, rfl⟩
  exact inTurn_succession afterSwap.backing (by decide) (by decide) hreach hdone

end ShadowCatalog.Registry
