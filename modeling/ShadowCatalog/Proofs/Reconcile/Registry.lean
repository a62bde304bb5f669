import ShadowCatalog.Proofs.Reconcile.Plan
import ShadowCatalog.Reconcile.Registry

/-!
# What the registry steps do

The steps of the registry follow a plan: each decides its changes from the store
as the steps before it have left it (`Registry.plan`, `Registry.follows_inTurn`).
What the changes of one step make of a store is an equation for each step:

* renames and refreshes go through the rows one by one (`RowByRow`), and leave
  the rows `renamed` and `refreshedFrom`;
* removals leave the rows that are live, and the columns of those
  (`applyAll_removals`);
* insertions add rows of new ids, in the order of the live tables
  (`applyAll_insertions`).
-/

namespace ShadowCatalog

namespace Registry

variable {σ : Type} {responder : Responder σ} {b : Backing responder} {state : σ}

/-! ## Plans -/

/-- What a step decides, from the live and the tracked tables. -/
abbrev Decision := List LiveTable → List TrackedTable → List Write

/-- The changes of steps, each decided from what those before it leave. -/
def planOf (live : List LiveTable) : List Decision → ShadowStore → List Write
  | [], _ => []
  | decide :: later, store =>
    decide live store.tables ++
      planOf live later (store.applyAll (decide live store.tables))

/-- The changes of the steps of the registry. -/
def plan (live : List LiveTable) (store : ShadowStore) : List Write := planOf live steps store

/-- The store after one step. -/
def stage (live : List LiveTable) (store : ShadowStore) (decide : Decision) : ShadowStore :=
  store.applyAll (decide live store.tables)

theorem applyAll_planOf (live : List LiveTable) (decisions : List Decision) (store : ShadowStore) :
    store.applyAll (planOf live decisions store) = decisions.foldl (stage live) store := by
  induction decisions generalizing store with
  | nil => rfl
  | cons decide later ih => rw [planOf, ShadowStore.applyAll_append, ih, List.foldl_cons, stage]

/-- Steps that have nothing to change do not matter to the plan. -/
theorem planOf_append_of_eq_nil {live : List LiveTable} {store : ShadowStore}
    {quiet later : List Decision} (h : ∀ decide ∈ quiet, decide live store.tables = []) :
    planOf live (quiet ++ later) store = planOf live later store := by
  induction quiet with
  | nil => rfl
  | cons decide quiet ih =>
    rw [List.forall_mem_cons] at h
    rw [List.cons_append, planOf, h.1, List.nil_append, ShadowStore.applyAll_nil, ih h.2]

theorem planOf_eq_nil {live : List LiveTable} {store : ShadowStore} {decisions : List Decision}
    (h : ∀ decide ∈ decisions, decide live store.tables = []) :
    planOf live decisions store = [] := by
  rw [← List.append_nil decisions, planOf_append_of_eq_nil h, planOf]

theorem follows_writeAll {ws : List Write} (h : (b.store state).AcceptsAll ws) :
    Follows b (writeAll ws) state ws () := by
  induction ws generalizing state with
  | nil => exact .pure ()
  | cons w ws ih =>
    obtain ⟨⟨reply, later, hw⟩, hws⟩ := h
    refine (Follows.write hw).bind fun middle hmiddle => ih ?_
    rw [hmiddle]
    exact hws

theorem follows_step {decide : Decision} {live : List LiveTable}
    (h : (b.store state).AcceptsAll (decide live (b.store state).tables)) :
    Follows b (step decide live) state (decide live (b.store state).tables) () := by
  have hask : Follows b (SyncTask.ask .trackedTables) state [] (b.store state).tables :=
    .ask (fun _ hw => by cases hw) rfl
  refine hask.bind fun middle hmiddle => follows_writeAll ?_
  rw [hmiddle]
  exact h

/-- Steps that decide on changes that can be made follow their plan. -/
theorem follows_planOf {live : List LiveTable} {decisions : List Decision}
    (h : (b.store state).AcceptsAll (planOf live decisions (b.store state))) :
    Follows b (inTurn live decisions) state (planOf live decisions (b.store state)) () := by
  induction decisions generalizing state with
  | nil => exact .pure ()
  | cons decide later ih =>
    obtain ⟨hfirst, hrest⟩ := ShadowStore.each_append.1 h
    refine (follows_step hfirst).bind ?_
    intro middle hmiddle
    rw [← hmiddle] at hrest ⊢
    exact ih hrest

/-! ## Kinds of changes -/

section

variable {live : List LiveTable} {rows : List TrackedTable} {w : Write}

/-- A row is renamed only if its name is another one. -/
theorem of_mem_renames (h : w ∈ renames live rows) :
    ∃ row ∈ rows, ∃ name, name ≠ row.name ∧ w = .renameTable row.tableId name := by
  obtain ⟨row, hrow, hsome⟩ := List.mem_filterMap.1 h
  obtain ⟨current, _, hsome⟩ := Option.bind_eq_some_iff.1 hsome
  split at hsome
  · next hne => exact ⟨row, hrow, current.name, hne, (Option.some.inj hsome).symm⟩
  · cases hsome

/-- A row takes only a physical id that is not held. -/
theorem of_mem_refreshesFrom {held : List PhysicalId} (h : w ∈ refreshesFrom live held rows) :
    ∃ row ∈ rows, ∃ physicalId ∉ held, w = .updatePhysicalId row.tableId physicalId := by
  induction rows generalizing held with
  | nil => exact absurd h List.not_mem_nil
  | cons row rows ih =>
    have hlater {held' : List PhysicalId} (hsub : held ⊆ held')
        (h : w ∈ refreshesFrom live held' rows) :
        ∃ other ∈ row :: rows, ∃ physicalId ∉ held,
          w = .updatePhysicalId other.tableId physicalId := by
      obtain ⟨other, hother, physicalId, hfree, heq⟩ := ih h
      exact ⟨other, List.mem_cons_of_mem _ hother, physicalId, fun hheld => hfree (hsub hheld), heq⟩
    rw [refreshesFrom] at h
    split at h
    · exact hlater (List.Subset.refl _) h
    · next current _ =>
      split at h
      · exact hlater (List.Subset.refl _) h
      · next hfree =>
        rcases List.mem_cons.1 h with rfl | h
        · exact ⟨row, List.mem_cons_self, current.physicalId, hfree, rfl⟩
        · exact hlater (List.subset_cons_self _ _) h

theorem of_mem_removals (h : w ∈ removals live rows) :
    ∃ row ∈ rows, w = .deleteTable row.tableId := by
  obtain ⟨row, hrow, rfl⟩ := List.mem_map.1 h
  exact ⟨row, (List.mem_filter.1 hrow).1, rfl⟩

theorem of_mem_insertions (h : w ∈ insertions live rows) :
    ∃ name physicalId, w = .insertTable name physicalId := by
  obtain ⟨table, _, rfl⟩ := List.mem_map.1 h
  exact ⟨_, _, rfl⟩

end

/-! ## Row by row -/

/-- A change that makes one row of another. -/
inductive Turns : Write → TrackedTable → TrackedTable → Prop
  | name (row : TrackedTable) (name : String) :
      Turns (.renameTable row.tableId name) row { row with name }
  | physicalId (row : TrackedTable) (physicalId : PhysicalId) :
      Turns (.updatePhysicalId row.tableId physicalId) row { row with physicalId }

/-- Changes that go through rows in order and change some of them. -/
inductive RowByRow : List TrackedTable → List Write → List TrackedTable → Prop
  | nil : RowByRow [] [] []
  | keep {row : TrackedTable} {rows rows' : List TrackedTable} {ws : List Write} :
      RowByRow rows ws rows' → RowByRow (row :: rows) ws (row :: rows')
  | change {w : Write} {row row' : TrackedTable} {rows rows' : List TrackedTable}
      {ws : List Write} :
      Turns w row row' → RowByRow rows ws rows' → RowByRow (row :: rows) (w :: ws) (row' :: rows')

theorem Turns.tableId_eq {w : Write} {row row' : TrackedTable} (h : Turns w row row') :
    row'.tableId = row.tableId := by
  cases h <;> rfl

/-- The order of rows is that of their ids. -/
theorem pairwise_tableId {rows rows' : List TrackedTable}
    (h : rows.Pairwise fun a b => a.tableId < b.tableId)
    (hids : rows'.map (·.tableId) = rows.map (·.tableId)) :
    rows'.Pairwise fun a b => a.tableId < b.tableId :=
  List.pairwise_map.1 (hids ▸ List.pairwise_map.2 h)

/-- A change of one row, in a store that has it. -/
theorem Turns.write {w : Write} {row row' : TrackedTable} (h : Turns w row row')
    {store : ShadowStore} {before after : List TrackedTable}
    (htables : store.tables = before ++ row :: after)
    (hkeyed : store.tables.Pairwise fun a b => a.tableId < b.tableId) :
    ∃ reply, store.write w = .ok (reply, { store with
      tables := before ++ row' :: after, writes := store.writes + 1 }) := by
  have hhas : store.hasTable row.tableId = true :=
    ShadowStore.hasTable_iff.2 ⟨row, by rw [htables]; simp, rfl⟩
  rw [htables] at hkeyed
  cases h with
  | name name =>
    refine ⟨(), ?_⟩
    rw [ShadowStore.write_renameTable hhas, htables, ShadowStore.changeRow_append_cons hkeyed]
  | physicalId physicalId =>
    refine ⟨(), ?_⟩
    rw [ShadowStore.write_updatePhysicalId hhas, htables,
      ShadowStore.changeRow_append_cons hkeyed]

namespace RowByRow

variable {rows rows' : List TrackedTable} {ws : List Write} {store : ShadowStore}

/-- Changes that go through the last rows of a store can be made, and change
    those rows. -/
theorem applyAll_eq (h : RowByRow rows ws rows') {before : List TrackedTable}
    (htables : store.tables = before ++ rows)
    (hkeyed : store.tables.Pairwise fun a b => a.tableId < b.tableId) :
    store.AcceptsAll ws ∧ store.applyAll ws =
      { store with tables := before ++ rows', writes := store.writes + ws.length } := by
  induction h generalizing store before with
  | nil => exact ⟨trivial, by rw [← htables]; rfl⟩
  | @keep row rows rows' ws _ ih =>
    have htables' : store.tables = (before ++ [row]) ++ rows := by
      rw [htables, List.append_assoc]; rfl
    have := ih htables' hkeyed
    rw [List.append_assoc] at this
    exact this
  | @change w row row' rows rows' ws hturns _ ih =>
    obtain ⟨reply, hw⟩ := hturns.write htables hkeyed
    have happly := ShadowStore.apply_of_write hw
    -- The changed row is done: it joins those before.
    have hkeyed' : (before ++ row' :: rows).Pairwise fun a b => a.tableId < b.tableId := by
      refine pairwise_tableId hkeyed ?_
      rw [htables, List.map_append, List.map_append, List.map_cons, List.map_cons,
        hturns.tableId_eq]
    have htables' : (store.apply w).tables = (before ++ [row']) ++ rows := by
      rw [happly, List.append_assoc]; rfl
    have := ih htables' (by rw [happly]; exact hkeyed')
    rw [List.append_assoc] at this
    refine ⟨⟨⟨reply, _, hw⟩, this.1⟩, ?_⟩
    rw [ShadowStore.applyAll_cons, this.2, happly, List.length_cons, Nat.add_assoc,
      Nat.add_comm 1]
    rfl

end RowByRow

/-! ## Renames and refreshes -/

/-- A row under the live name of its physical id. -/
def renamed (live : List LiveTable) (row : TrackedTable) : TrackedTable :=
  match liveAt? live row.physicalId with
  | some current => { row with name := current.name }
  | none => row

theorem rowByRow_renames (live : List LiveTable) (rows : List TrackedTable) :
    RowByRow rows (renames live rows) (rows.map (renamed live)) := by
  induction rows with
  | nil => exact .nil
  | cons row rows ih =>
    rw [renames, List.filterMap_cons, List.map_cons]
    cases hat : liveAt? live row.physicalId with
    | none =>
      rw [renamed, hat]
      exact .keep ih
    | some current =>
      simp only [renamed, hat, Option.bind_some]
      by_cases hname : current.name = row.name
      · rw [if_neg (not_not_intro hname), hname]
        exact .keep ih
      · rw [if_pos hname]
        exact .change (.name row current.name) ih

/-- Rows, of which those take the physical id of the live table of their name
    that can, when those in `held` are held by a tracked table. -/
def refreshedFrom (live : List LiveTable) (held : List PhysicalId) :
    List TrackedTable → List TrackedTable
  | [] => []
  | row :: rows =>
    match live.find? (·.name = row.name) with
    | none => row :: refreshedFrom live held rows
    | some current =>
      if current.physicalId ∈ held then row :: refreshedFrom live held rows
      else { row with physicalId := current.physicalId } ::
        refreshedFrom live (current.physicalId :: held) rows

theorem rowByRow_refreshesFrom (live : List LiveTable) (held : List PhysicalId)
    (rows : List TrackedTable) :
    RowByRow rows (refreshesFrom live held rows) (refreshedFrom live held rows) := by
  induction rows generalizing held with
  | nil => exact .nil
  | cons row rows ih =>
    rw [refreshesFrom, refreshedFrom]
    cases live.find? (·.name = row.name) with
    | none => exact .keep (ih held)
    | some current =>
      dsimp only
      split
      · exact .keep (ih held)
      · exact .change (.physicalId row current.physicalId) (ih _)

section

variable {store : ShadowStore} (h : store.WellKeyed) (live : List LiveTable)
include h

theorem applyAll_renames :
    store.AcceptsAll (renames live store.tables) ∧
      store.applyAll (renames live store.tables) = { store with
        tables := store.tables.map (renamed live)
        writes := store.writes + (renames live store.tables).length } :=
  (rowByRow_renames live store.tables).applyAll_eq (List.nil_append _).symm h.tables

theorem applyAll_refreshes :
    store.AcceptsAll (refreshes live store.tables) ∧
      store.applyAll (refreshes live store.tables) = { store with
        tables := refreshedFrom live (store.tables.map (·.physicalId)) store.tables
        writes := store.writes + (refreshes live store.tables).length } :=
  (rowByRow_refreshesFrom live _ store.tables).applyAll_eq (List.nil_append _).symm h.tables

end

/-! ## Removals and insertions -/

theorem applyAll_deleteTables (ids : List TableId) (store : ShadowStore) :
    store.AcceptsAll (ids.map .deleteTable) ∧
      store.applyAll (ids.map .deleteTable) = { store with
        tables := store.tables.filter fun row => row.tableId ∉ ids
        columns := store.columns.filter fun column => column.tableId ∉ ids
        writes := store.writes + ids.length } := by
  induction ids generalizing store with
  | nil => exact ⟨trivial, by simp⟩
  | cons id ids ih =>
    obtain ⟨haccepts, happly⟩ := ih (store.apply (.deleteTable id))
    refine ⟨⟨⟨(), _, rfl⟩, haccepts⟩, ?_⟩
    -- One removal after the other filters out what all of them together do.
    rw [List.map_cons, ShadowStore.applyAll_cons, happly,
      ShadowStore.apply_of_write (w := .deleteTable id) rfl, ShadowStore.deleteTable]
    simp only [List.filter_filter, List.mem_cons, not_or, List.length_cons, Nat.add_assoc,
      Nat.add_comm 1, Bool.decide_and, decide_not, ne_eq, Bool.and_comm]

/-- A row is not removed exactly if it is a live table. -/
theorem not_mem_removed_iff {store : ShadowStore} (h : store.WellKeyed) {live : List LiveTable}
    {row : TrackedTable} (hrow : row ∈ store.tables) :
    row.tableId ∉ (store.tables.filter fun row => !live.any (sameTable row)).map (·.tableId) ↔
      live.any (sameTable row) = true := by
  constructor
  · intro hnot
    by_contra hlive
    exact hnot (List.mem_map.2 ⟨row, List.mem_filter.2 ⟨hrow, by simpa using hlive⟩, rfl⟩)
  · intro hlive hmem
    obtain ⟨other, hother, hid⟩ := List.mem_map.1 hmem
    rw [List.mem_filter] at hother
    rw [h.table_eq hother.1 hrow hid, hlive] at hother
    exact absurd hother.2 (by decide)

theorem applyAll_removals {store : ShadowStore} (h : store.WellKeyed) (live : List LiveTable) :
    store.AcceptsAll (removals live store.tables) ∧
      store.applyAll (removals live store.tables) = { store with
        tables := store.tables.filter fun row => live.any (sameTable row)
        columns := store.columns.filter fun column =>
          ∀ row ∈ store.tables, row.tableId = column.tableId → live.any (sameTable row) = true
        writes := store.writes + (removals live store.tables).length } := by
  obtain ⟨haccepts, happly⟩ := applyAll_deleteTables
    ((store.tables.filter fun row => !live.any (sameTable row)).map (·.tableId)) store
  rw [List.map_map] at haccepts happly
  refine ⟨haccepts, happly.trans ?_⟩
  congr 1
  · refine List.filter_congr ?_
    intro row hrow
    rw [← Bool.coe_iff_coe, decide_eq_true_iff]
    exact not_mem_removed_iff h hrow
  · refine List.filter_congr ?_
    intro column _
    rw [decide_eq_decide]
    constructor
    · intro hnot row hrow hid
      exact (not_mem_removed_iff h hrow).1 (hid ▸ hnot)
    · intro hall hmem
      obtain ⟨row, hrow, hid⟩ := List.mem_map.1 hmem
      rw [List.mem_filter, Bool.not_eq_true'] at hrow
      exact Bool.false_ne_true (hrow.2.symm.trans (hall row hrow.1 hid))
  · rw [removals, List.length_map, List.length_map]

/-- Rows of live tables tracked for the first time, with new ids in ascending
    order. -/
def freshRows (last : TableId) : List LiveTable → List TrackedTable
  | [] => []
  | table :: tables => .new (last + 1) table.name table.physicalId :: freshRows (last + 1) tables

theorem applyAll_insertTables (tables : List LiveTable) (store : ShadowStore) :
    let ws := tables.map fun table => Write.insertTable table.name table.physicalId
    store.AcceptsAll ws ∧ store.applyAll ws = { store with
      tables := store.tables ++ freshRows store.lastTableId tables
      lastTableId := store.lastTableId + tables.length
      writes := store.writes + tables.length } := by
  induction tables generalizing store with
  | nil => exact ⟨trivial, by simp [freshRows]⟩
  | cons table tables ih =>
    obtain ⟨haccepts, happly⟩ := ih (store.insertTable table.name table.physicalId).2
    refine ⟨⟨⟨_, _, rfl⟩, haccepts⟩, happly.trans ?_⟩
    rw [ShadowStore.insertTable, freshRows, List.append_assoc, List.length_cons, Nat.add_assoc,
      Nat.add_comm 1, Int.natCast_add, Int.add_assoc, Int.add_comm 1]
    rfl

theorem applyAll_insertions (store : ShadowStore) (live : List LiveTable) :
    let tables := live.filter fun table => !store.tables.any (sameTable · table)
    store.AcceptsAll (insertions live store.tables) ∧
      store.applyAll (insertions live store.tables) = { store with
        tables := store.tables ++ freshRows store.lastTableId tables
        lastTableId := store.lastTableId + tables.length
        writes := store.writes + tables.length } :=
  applyAll_insertTables _ store

/-! ## The steps together -/

theorem stage_removals {store : ShadowStore} (h : store.WellKeyed) (live : List LiveTable) :
    stage live store removals = { store with
      tables := store.tables.filter fun row => live.any (sameTable row)
      columns := store.columns.filter fun column =>
        ∀ row ∈ store.tables, row.tableId = column.tableId → live.any (sameTable row) = true
      writes := store.writes + (removals live store.tables).length } :=
  (applyAll_removals h live).2

theorem stage_insertions (store : ShadowStore) (live : List LiveTable) :
    let tables := live.filter fun table => !store.tables.any (sameTable · table)
    stage live store insertions = { store with
      tables := store.tables ++ freshRows store.lastTableId tables
      lastTableId := store.lastTableId + tables.length
      writes := store.writes + tables.length } :=
  (applyAll_insertions store live).2

theorem wellKeyed_stage {store : ShadowStore} (h : store.WellKeyed) (live : List LiveTable)
    (decide : Decision) : (stage live store decide).WellKeyed :=
  h.applyAll _

/-- The store after the steps of the registry. -/
theorem applyAll_plan (live : List LiveTable) (store : ShadowStore) :
    store.applyAll (plan live store) =
      stage live (stage live (stage live (stage live store renames) refreshes) removals)
        insertions :=
  applyAll_planOf live steps store

theorem acceptsAll_plan {store : ShadowStore} (h : store.WellKeyed) (live : List LiveTable) :
    store.AcceptsAll (plan live store) := by
  refine ShadowStore.each_append.2 ⟨(applyAll_renames h live).1, ?_⟩
  have h₁ := h.applyAll (renames live store.tables)
  refine ShadowStore.each_append.2 ⟨(applyAll_refreshes h₁ live).1, ?_⟩
  have h₂ := h₁.applyAll (refreshes live (stage live store renames).tables)
  refine ShadowStore.each_append.2 ⟨(applyAll_removals h₂ live).1, ?_⟩
  exact ShadowStore.each_append.2 ⟨(applyAll_insertions _ live).1, trivial⟩

/-- The steps of the registry follow their plan. -/
theorem follows_inTurn (h : (b.store state).WellKeyed) (live : List LiveTable) :
    Follows b (inTurn live steps) state (plan live (b.store state)) () :=
  follows_planOf (acceptsAll_plan h live)

end Registry

end ShadowCatalog
