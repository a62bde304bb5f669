import ShadowCatalog.Proofs.Reconcile.Settled

/-!
# Taking up the steps again

The steps of the registry may stop after any of their changes. What they then
plan anew, from the store as it was left, is what was left of the plan
(`plan_apply`, `plan_eq_append`), provided that live tables differ in
their names as well as in their physical ids.

The first change of a step leaves the rest of it to do, and nothing for the
steps before it:

* a renamed table has its live name (`renames_apply`);
* a refreshed table has the physical id of its live name, and the one that it
  gave up is not live (`refreshes_apply`);
* a removed table held no id that keeps another from being refreshed
  (`removals_apply`);
* an inserted table is live (`insertions_apply`).
-/

namespace ShadowCatalog.Registry

variable {live : List LiveTable} {rows : List TrackedTable} {store : ShadowStore} {w : Write}
  {ws : List Write}

/-! ## Renames -/

theorem renames_append (rows others : List TrackedTable) :
    renames live (rows ++ others) = renames live rows ++ renames live others :=
  List.filterMap_append

/-- The first rename is that of the first row that is not of its live name. -/
theorem of_renames_eq_cons (h : renames live rows = w :: ws) :
    ∃ before row after current, rows = before ++ row :: after ∧ renames live before = [] ∧
      liveAt? live row.physicalId = some current ∧
      w = .renameTable row.tableId current.name ∧ ws = renames live after := by
  obtain ⟨before, row, after, rfl, hbefore, hrow, hafter⟩ := List.filterMap_eq_cons_iff.1 h
  refine ⟨before, row, after, ?_⟩
  cases hat : liveAt? live row.physicalId with
  | none => simp [hat] at hrow
  | some current =>
    rw [hat, Option.bind_some] at hrow
    split at hrow
    · exact ⟨current, rfl, List.filterMap_eq_nil_iff.2 hbefore, rfl,
        (Option.some.inj hrow).symm, hafter.symm⟩
    · cases hrow

theorem renames_apply (h : store.WellKeyed) (hfirst : renames live store.tables = w :: ws) :
    renames live (store.apply w).tables = ws := by
  obtain ⟨before, row, after, current, htables, hbefore, hat, rfl, rfl⟩ := of_renames_eq_cons hfirst
  obtain ⟨reply, hwrite⟩ := (Turns.name row current.name).write htables h.tables
  have hrow : renames live [{ row with name := current.name }] = [] := by
    refine renames_eq_nil_iff.2 ?_
    intro other hother table htable
    rw [List.mem_singleton.1 hother, hat, Option.some.injEq] at htable
    rw [List.mem_singleton.1 hother, htable]
  rw [ShadowStore.apply_of_write hwrite]
  change renames live (before ++ ([{ row with name := current.name }] ++ after)) = _
  rw [renames_append, renames_append, hbefore, hrow, List.nil_append, List.nil_append]

/-! ## Refreshes -/

/-- Refreshes go by the live ids among those that are held. -/
theorem refreshesFrom_congr {held held' : List PhysicalId}
    (h : ∀ table ∈ live, table.physicalId ∈ held ↔ table.physicalId ∈ held') :
    refreshesFrom live held rows = refreshesFrom live held' rows := by
  induction rows generalizing held held' with
  | nil => rfl
  | cons row rows ih =>
    rw [refreshesFrom, refreshesFrom]
    cases hfind : live.find? (·.name = row.name) with
    | none => exact ih h
    | some current =>
      dsimp only
      rw [if_congr (h current (mem_of_find?_name hfind).1) (ih h) rfl]
      refine if_congr Iff.rfl rfl (congrArg _ (ih fun table htable => ?_))
      rw [List.mem_cons, List.mem_cons, h table htable]

/-- Rows without a refresh of their own leave the held ids as they are. -/
theorem refreshesFrom_append_of_eq_nil {held : List PhysicalId} {others : List TrackedTable}
    (h : refreshesFrom live held rows = []) :
    refreshesFrom live held (rows ++ others) = refreshesFrom live held others := by
  induction rows with
  | nil => rfl
  | cons row rows ih =>
    rw [List.cons_append, refreshesFrom]
    rw [refreshesFrom] at h
    cases hfind : live.find? (·.name = row.name) with
    | none =>
      rw [hfind] at h
      exact ih h
    | some current =>
      simp only [hfind] at h ⊢
      split at h
      · next hheld =>
        rw [if_pos hheld]
        exact ih h
      · cases h

/-- The first refresh is that of the first row that can take the physical id of the
    live table of its name. -/
theorem of_refreshesFrom_eq_cons {held : List PhysicalId}
    (h : refreshesFrom live held rows = w :: ws) :
    ∃ before row after current, rows = before ++ row :: after ∧
      refreshesFrom live held before = [] ∧ live.find? (·.name = row.name) = some current ∧
      current.physicalId ∉ held ∧ w = .updatePhysicalId row.tableId current.physicalId ∧
      ws = refreshesFrom live (current.physicalId :: held) after := by
  induction rows with
  | nil => cases h
  | cons row rows ih =>
    rw [refreshesFrom] at h
    -- A row without a refresh joins those before the first one with a refresh.
    have hskip (hrow : refreshesFrom live held [row] = [])
        (h : refreshesFrom live held rows = w :: ws) :
        ∃ before other after current, row :: rows = before ++ other :: after ∧
          refreshesFrom live held before = [] ∧ live.find? (·.name = other.name) = some current ∧
          current.physicalId ∉ held ∧ w = .updatePhysicalId other.tableId current.physicalId ∧
          ws = refreshesFrom live (current.physicalId :: held) after := by
      obtain ⟨before, other, after, current, rfl, hbefore, hrest⟩ := ih h
      exact ⟨row :: before, other, after, current, rfl,
        (refreshesFrom_append_of_eq_nil hrow).trans hbefore, hrest⟩
    cases hfind : live.find? (·.name = row.name) with
    | none =>
      rw [hfind] at h
      exact hskip (by rw [refreshesFrom, hfind]; rfl) h
    | some current =>
      simp only [hfind] at h
      split at h
      · next hheld => exact hskip (by simp only [refreshesFrom, hfind, if_pos hheld]) h
      · next hfree =>
        obtain ⟨rfl, rfl⟩ := List.cons.inj h
        exact ⟨[], row, rows, current, rfl, rfl, hfind, hfree, rfl, rfl⟩

/-- The id that a refreshed row gives up is not live: else the row would go by the
    name of that table, and that would be the table whose id it takes. -/
theorem not_live_of_refreshed (hids : live.Pairwise (·.physicalId ≠ ·.physicalId))
    (hnames : live.Pairwise (·.name ≠ ·.name)) (hrenames : renames live rows = [])
    {row : TrackedTable} (hrow : row ∈ rows) {current : LiveTable}
    (hfind : live.find? (·.name = row.name) = some current)
    (hfree : current.physicalId ∉ rows.map (·.physicalId)) :
    ∀ table ∈ live, table.physicalId ≠ row.physicalId := by
  intro table htable hid
  have hat := (liveAt?_eq_some_iff hids).2 ⟨htable, hid⟩
  have hname := renames_eq_nil_iff.1 hrenames row hrow table hat
  have hsame := (find?_name_eq_some_iff hnames).2 ⟨htable, hname⟩
  rw [hfind, Option.some.injEq] at hsame
  rw [hsame, hid] at hfree
  exact hfree (List.mem_map_of_mem hrow)

/-- When a row has taken a physical id, and has given up one that is not live, the
    refreshes of the rows after it are left. -/
theorem refreshes_of_refreshed {before after : List TrackedTable} {row : TrackedTable}
    {current : LiveTable}
    (hbefore : refreshesFrom live ((before ++ row :: after).map (·.physicalId)) before = [])
    (hfind : live.find? (·.name = row.name) = some current)
    (hdead : ∀ table ∈ live, table.physicalId ≠ row.physicalId) :
    refreshes live (before ++ { row with physicalId := current.physicalId } :: after) =
      refreshesFrom live (current.physicalId :: (before ++ row :: after).map (·.physicalId))
        after := by
  -- What is held has changed by the id that was given up, which no refresh asks for.
  have hheld : ∀ table ∈ live,
      (table.physicalId ∈
          (before ++ { row with physicalId := current.physicalId } :: after).map (·.physicalId) ↔
        table.physicalId ∈ current.physicalId :: (before ++ row :: after).map (·.physicalId)) := by
    intro table htable
    have hne := hdead table htable
    simp only [List.map_append, List.map_cons, List.mem_append, List.mem_cons, hne, false_or]
    exact or_left_comm
  have hquiet : refreshesFrom live
      (current.physicalId :: (before ++ row :: after).map (·.physicalId))
      (before ++ [{ row with physicalId := current.physicalId }]) = [] := by
    -- The rows before held on to ids that are still held, and the row itself has the
    -- id of its live name now.
    refine refreshesFrom_eq_nil_iff.2 ?_
    intro other hother table htable
    rcases List.mem_append.1 hother with hother | hother
    · exact List.mem_cons_of_mem _ (refreshesFrom_eq_nil_iff.1 hbefore other hother table htable)
    · rw [List.mem_singleton.1 hother, hfind, Option.some.injEq] at htable
      exact htable ▸ List.mem_cons_self
  have hsplit : before ++ { row with physicalId := current.physicalId } :: after =
      (before ++ [{ row with physicalId := current.physicalId }]) ++ after := by simp
  rw [refreshes, refreshesFrom_congr hheld, hsplit, refreshesFrom_append_of_eq_nil hquiet]

/-- Where every row is of its live name, the refresh of a row leaves it so, and
    leaves the other refreshes to do. -/
theorem refreshes_apply (h : store.WellKeyed)
    (hids : live.Pairwise (·.physicalId ≠ ·.physicalId))
    (hnames : live.Pairwise (·.name ≠ ·.name)) (hrenames : renames live store.tables = [])
    (hfirst : refreshes live store.tables = w :: ws) :
    renames live (store.apply w).tables = [] ∧ refreshes live (store.apply w).tables = ws := by
  obtain ⟨before, row, after, current, htables, hbefore, hfind, hfree, rfl, rfl⟩ :=
    of_refreshesFrom_eq_cons hfirst
  obtain ⟨reply, hwrite⟩ :=
    (Turns.physicalId row current.physicalId).write htables h.tables
  rw [ShadowStore.apply_of_write hwrite]
  rw [htables] at hrenames hbefore hfree ⊢
  constructor
  · obtain ⟨hlive, hname⟩ := mem_of_find?_name hfind
    have hrow : renames live [{ row with physicalId := current.physicalId }] = [] := by
      refine renames_eq_nil_iff.2 ?_
      intro other hother table hat
      rw [List.mem_singleton.1 hother] at hat ⊢
      rw [(liveAt?_eq_some_iff hids).2 ⟨hlive, rfl⟩, Option.some.injEq] at hat
      exact hat ▸ hname
    rw [List.append_cons, renames_append, renames_append, List.append_eq_nil_iff,
      List.append_eq_nil_iff] at hrenames ⊢
    exact ⟨⟨hrenames.1.1, hrow⟩, hrenames.2⟩
  · have hmem : row ∈ before ++ row :: after := by simp
    exact refreshes_of_refreshed hbefore hfind
      (not_live_of_refreshed hids hnames hrenames hmem hfind hfree)

/-! ## Removals -/

/-- A removed row that went by its live name held no live id. -/
theorem not_live_of_removed (hids : live.Pairwise (·.physicalId ≠ ·.physicalId))
    (hrenames : renames live rows = []) {row : TrackedTable} (hrow : row ∈ rows)
    (hremoved : live.any (sameTable row) = false) :
    ∀ table ∈ live, table.physicalId ≠ row.physicalId := by
  intro table htable hid
  have hat := (liveAt?_eq_some_iff hids).2 ⟨htable, hid⟩
  have hname := renames_eq_nil_iff.1 hrenames row hrow table hat
  have hlive := List.any_eq_true.2 ⟨table, htable, sameTable_iff.2 ⟨hname, hid⟩⟩
  rw [hremoved] at hlive
  cases hlive

/-- When the first row to be removed is gone, the others are left. -/
theorem removals_filter (hkeyed : rows.Pairwise fun a b => a.tableId < b.tableId)
    {row : TrackedTable} {rest : List TrackedTable}
    (hrows : rows.filter (fun row => !live.any (sameTable row)) = row :: rest) :
    removals live (rows.filter (·.tableId ≠ row.tableId)) =
      rest.map fun row => .deleteTable row.tableId := by
  have hlater := hkeyed.filter (fun row => !live.any (sameTable row))
  rw [hrows, List.pairwise_cons] at hlater
  rw [removals, List.filter_filter]
  simp only [Bool.and_comm]
  rw [← List.filter_filter, hrows, List.filter_cons_of_neg (by simp), List.filter_eq_self.2]
  intro other hother
  exact decide_eq_true (Int.ne_of_lt (hlater.1 other hother)).symm

/-- Where no row is to be renamed or refreshed, a removal leaves it so, and leaves
    the other removals to do. -/
theorem removals_apply (h : store.WellKeyed)
    (hids : live.Pairwise (·.physicalId ≠ ·.physicalId))
    (hrenames : renames live store.tables = []) (hrefreshes : refreshes live store.tables = [])
    (hfirst : removals live store.tables = w :: ws) :
    renames live (store.apply w).tables = [] ∧ refreshes live (store.apply w).tables = [] ∧
      removals live (store.apply w).tables = ws := by
  obtain ⟨row, rest, hrows, rfl, rfl⟩ := List.map_eq_cons_iff.1 hfirst
  have hmem : row ∈ store.tables ∧ live.any (sameTable row) = false := by
    have : row ∈ store.tables.filter fun row => !live.any (sameTable row) := by rw [hrows]; simp
    simpa using List.mem_filter.1 this
  have htables : (store.apply (.deleteTable row.tableId)).tables =
      store.tables.filter (·.tableId ≠ row.tableId) := rfl
  rw [htables]
  refine ⟨?_, ?_, removals_filter h.tables hrows⟩
  · refine renames_eq_nil_iff.2 ?_
    intro other hother
    exact renames_eq_nil_iff.1 hrenames other (List.mem_filter.1 hother).1
  · refine refreshes_eq_nil_iff.2 ?_
    intro other hother table hfind
    obtain ⟨holder, hholder, hid⟩ :=
      refreshes_eq_nil_iff.1 hrefreshes other (List.mem_filter.1 hother).1 table hfind
    -- The id that keeps a row from being refreshed is not that of the removed row.
    have hne : holder.tableId ≠ row.tableId := by
      intro heq
      rw [h.table_eq hholder hmem.1 heq] at hid
      exact not_live_of_removed hids hrenames hmem.1 hmem.2 table (mem_of_find?_name hfind).1
        hid.symm
    exact ⟨holder, List.mem_filter.2 ⟨hholder, decide_eq_true hne⟩, hid⟩

/-! ## Insertions -/

/-- When the row of the first live table to be tracked is there, the others are left. -/
theorem insertions_append_singleton {table : LiveTable} {rest : List LiveTable}
    (hids : live.Pairwise (·.physicalId ≠ ·.physicalId))
    (hnew : live.filter (fun table => !rows.any (sameTable · table)) = table :: rest)
    {row : TrackedTable} (hsame : sameTable row table = true) :
    insertions live (rows ++ [row]) =
      rest.map fun table => .insertTable table.name table.physicalId := by
  have hother := hids.filter (fun table => !rows.any (sameTable · table))
  rw [hnew, List.pairwise_cons] at hother
  have hnot (current : LiveTable) : (!(rows ++ [row]).any (sameTable · current)) =
      (!sameTable row current && !rows.any (sameTable · current)) := by
    rw [List.any_append, List.any_cons, List.any_nil, Bool.or_false, Bool.not_or, Bool.and_comm]
  simp only [insertions, hnot]
  rw [← List.filter_filter, hnew, List.filter_cons_of_neg (by simp [hsame]), List.filter_eq_self.2]
  intro current hcurrent
  rw [Bool.not_eq_true', Bool.eq_false_iff]
  intro hagain
  exact hother.1 current hcurrent
    ((sameTable_iff.1 hsame).2.trans (sameTable_iff.1 hagain).2.symm)

/-- Where no row is to be changed or removed, an insertion leaves it so, and leaves
    the other insertions to do. -/
theorem insertions_apply (hids : live.Pairwise (·.physicalId ≠ ·.physicalId))
    (hnames : live.Pairwise (·.name ≠ ·.name)) (hrenames : renames live store.tables = [])
    (hrefreshes : refreshes live store.tables = []) (hremovals : removals live store.tables = [])
    (hfirst : insertions live store.tables = w :: ws) :
    renames live (store.apply w).tables = [] ∧ refreshes live (store.apply w).tables = [] ∧
      removals live (store.apply w).tables = [] ∧ insertions live (store.apply w).tables = ws := by
  obtain ⟨table, rest, htables, rfl, rfl⟩ := List.map_eq_cons_iff.1 hfirst
  have hlive : table ∈ live := by
    have : table ∈ live.filter fun table => !store.tables.any (sameTable · table) := by
      rw [htables]; simp
    exact (List.mem_filter.1 this).1
  obtain ⟨row, hrows, hname, hid⟩ : ∃ row : TrackedTable,
      (store.apply (.insertTable table.name table.physicalId)).tables = store.tables ++ [row] ∧
        row.name = table.name ∧ row.physicalId = table.physicalId := ⟨_, rfl, rfl, rfl⟩
  have hsame : sameTable row table = true := sameTable_iff.2 ⟨hname.symm, hid.symm⟩
  rw [hrows]
  refine ⟨?_, ?_, ?_, insertions_append_singleton hids htables hsame⟩
  · rw [renames_append, hrenames, List.nil_append]
    refine renames_eq_nil_iff.2 ?_
    intro other hother current hat
    rw [List.mem_singleton.1 hother, (liveAt?_eq_some_iff hids).2 ⟨hlive, hid.symm⟩,
      Option.some.injEq] at hat
    rw [List.mem_singleton.1 hother, hname, hat]
  · refine refreshes_eq_nil_iff.2 ?_
    intro other hother current hfind
    rcases List.mem_append.1 hother with hother | hother
    · obtain ⟨holder, hholder, hid⟩ := refreshes_eq_nil_iff.1 hrefreshes other hother current hfind
      exact ⟨holder, List.mem_append_left _ hholder, hid⟩
    -- The new row itself holds the id.
    · rw [List.mem_singleton.1 hother, (find?_name_eq_some_iff hnames).2 ⟨hlive, hname.symm⟩,
        Option.some.injEq] at hfind
      exact ⟨row, List.mem_append_right _ (List.mem_singleton_self _), hfind ▸ hid⟩
  · refine removals_eq_nil_iff.2 ?_
    intro other hother
    rcases List.mem_append.1 hother with hother | hother
    · exact removals_eq_nil_iff.1 hremovals other hother
    · rw [List.mem_singleton.1 hother]
      exact List.any_eq_true.2 ⟨table, hlive, hsame⟩

/-! ## The steps together -/

/-- The first change of a plan is that of the first step that has one. If it leaves
    nothing for the steps before and the rest for this one, the rest is planned. -/
theorem planOf_resume (quiet : List Decision) {later : List Decision} {decide : Decision}
    {v : Write} {vs : List Write} (hquiet : ∀ d ∈ quiet, d live store.tables = [])
    (hfirst : decide live store.tables = v :: vs)
    (hquiet' : ∀ d ∈ quiet, d live (store.apply v).tables = [])
    (hrest : decide live (store.apply v).tables = vs)
    (hplan : planOf live (quiet ++ decide :: later) store = w :: ws) :
    planOf live (quiet ++ decide :: later) (store.apply w) = ws := by
  rw [planOf_append_of_eq_nil hquiet, planOf, hfirst, ShadowStore.applyAll_cons,
    List.cons_append, List.cons.injEq] at hplan
  obtain ⟨rfl, hws⟩ := hplan
  rw [planOf_append_of_eq_nil hquiet', planOf, hrest]
  exact hws

/-- After the first change of a plan, the rest of it is planned. -/
theorem plan_apply (h : store.WellKeyed) (hids : live.Pairwise (·.physicalId ≠ ·.physicalId))
    (hnames : live.Pairwise (·.name ≠ ·.name)) (hplan : plan live store = w :: ws) :
    plan live (store.apply w) = ws := by
  -- The first change is that of the first step that is not done yet.
  cases hrenames : renames live store.tables with
  | cons v vs =>
    exact planOf_resume [] (by simp) hrenames (by simp) (renames_apply h hrenames) hplan
  | nil =>
  cases hrefreshes : refreshes live store.tables with
  | cons v vs =>
    obtain ⟨hrenames', hrest⟩ := refreshes_apply h hids hnames hrenames hrefreshes
    exact planOf_resume [renames] (by simp [hrenames]) hrefreshes (by simp [hrenames']) hrest hplan
  | nil =>
  cases hremovals : removals live store.tables with
  | cons v vs =>
    obtain ⟨hrenames', hrefreshes', hrest⟩ := removals_apply h hids hrenames hrefreshes hremovals
    exact planOf_resume [renames, refreshes] (by simp [hrenames, hrefreshes]) hremovals
      (by simp [hrenames', hrefreshes']) hrest hplan
  | nil =>
  cases hinsertions : insertions live store.tables with
  | cons v vs =>
    obtain ⟨hrenames', hrefreshes', hremovals', hrest⟩ :=
      insertions_apply hids hnames hrenames hrefreshes hremovals hinsertions
    exact planOf_resume [renames, refreshes, removals] (by simp [hrenames, hrefreshes, hremovals])
      hinsertions (by simp [hrenames', hrefreshes', hremovals']) hrest hplan
  | nil =>
    have hnone : plan live store = [] :=
      planOf_eq_nil (by simp [steps, hrenames, hrefreshes, hremovals, hinsertions])
    rw [hnone] at hplan
    cases hplan

/-- After the first few changes of a plan, the rest of it is planned. -/
theorem plan_eq_append (h : store.WellKeyed) (hids : live.Pairwise (·.physicalId ≠ ·.physicalId))
    (hnames : live.Pairwise (·.name ≠ ·.name)) {few : List Write} (hfew : few <+: plan live store) :
    plan live store = few ++ plan live (store.applyAll few) := by
  induction few generalizing store with
  | nil => rfl
  | cons w few ih =>
    obtain ⟨rest, hrest⟩ := hfew
    have hnext := plan_apply h hids hnames hrest.symm
    rw [ShadowStore.applyAll_cons, List.cons_append, ← ih (h.apply w) ⟨rest, hnext.symm⟩, hnext,
      ← hrest]
    rfl

end ShadowCatalog.Registry
