import ShadowCatalog.Proofs.Reconcile.Registry

/-!
# The settled registry

A registry is *settled* for live tables if its rows are these tables, under
their names and physical ids, and each live table has a row (`Registry.Settled`).
So it is after the steps of the registry, whatever it was before
(`settled_applyAll_plan`), and then the steps have nothing to change
(`plan_of_settled`).

Each step says of itself when it has nothing to change (`renames_eq_nil_iff`
and so on).
-/

namespace ShadowCatalog.Registry

variable {live : List LiveTable} {rows : List TrackedTable}

theorem sameTable_iff {row : TrackedTable} {table : LiveTable} :
    sameTable row table = true ↔ table.name = row.name ∧ table.physicalId = row.physicalId := by
  rw [sameTable, Bool.and_eq_true, decide_eq_true_iff, decide_eq_true_iff]

/-! ## Looking up live tables -/

/-- The live table of a physical id, where these ids differ. -/
theorem liveAt?_eq_some_iff (hids : live.Pairwise (·.physicalId ≠ ·.physicalId))
    {physicalId : PhysicalId} {table : LiveTable} :
    liveAt? live physicalId = some table ↔ table ∈ live ∧ table.physicalId = physicalId := by
  have hids' : live.reverse.Pairwise (·.physicalId ≠ ·.physicalId) :=
    List.pairwise_reverse.2 (hids.imp Ne.symm)
  exact (find?_key_eq_some_iff LiveTable.physicalId hids').trans
    (and_congr_left fun _ => List.mem_reverse)

/-- The live table of a name, where names differ. -/
theorem find?_name_eq_some_iff (hnames : live.Pairwise (·.name ≠ ·.name)) {name : String}
    {table : LiveTable} :
    live.find? (·.name = name) = some table ↔ table ∈ live ∧ table.name = name :=
  find?_key_eq_some_iff LiveTable.name hnames

theorem mem_of_find?_name {name : String} {table : LiveTable}
    (h : live.find? (·.name = name) = some table) : table ∈ live ∧ table.name = name :=
  ⟨List.mem_of_find?_eq_some h, by simpa using List.find?_some h⟩

/-! ## Steps without changes -/

theorem renames_eq_nil_iff :
    renames live rows = [] ↔
      ∀ row ∈ rows, ∀ table, liveAt? live row.physicalId = some table → table.name = row.name := by
  rw [renames, List.filterMap_eq_nil_iff]
  refine forall₂_congr ?_
  intro row _
  cases liveAt? live row.physicalId with
  | none => simp
  | some table => simp

theorem refreshesFrom_eq_nil_iff {held : List PhysicalId} :
    refreshesFrom live held rows = [] ↔
      ∀ row ∈ rows, ∀ table, live.find? (·.name = row.name) = some table →
        table.physicalId ∈ held := by
  induction rows with
  | nil => simp [refreshesFrom]
  | cons row rows ih =>
    rw [refreshesFrom, List.forall_mem_cons]
    cases live.find? (·.name = row.name) with
    | none => simpa using ih
    | some table =>
      dsimp only
      split
      · next hheld => simp [ih, hheld]
      · next hheld => simp [hheld]

theorem refreshes_eq_nil_iff :
    refreshes live rows = [] ↔
      ∀ row ∈ rows, ∀ table, live.find? (·.name = row.name) = some table →
        ∃ other ∈ rows, other.physicalId = table.physicalId := by
  rw [refreshes, refreshesFrom_eq_nil_iff]
  simp only [List.mem_map]

theorem removals_eq_nil_iff :
    removals live rows = [] ↔ ∀ row ∈ rows, live.any (sameTable row) = true := by
  rw [removals, List.map_eq_nil_iff, List.filter_eq_nil_iff]
  simp only [Bool.not_eq_true', Bool.not_eq_false]

theorem insertions_eq_nil_iff :
    insertions live rows = [] ↔ ∀ table ∈ live, rows.any (sameTable · table) = true := by
  rw [insertions, List.map_eq_nil_iff, List.filter_eq_nil_iff]
  simp only [Bool.not_eq_true', Bool.not_eq_false]

/-! ## Settling -/

/-- The rows are the live tables, and each live table has a row. -/
structure Settled (live : List LiveTable) (rows : List TrackedTable) : Prop where
  isLive : ∀ row ∈ rows, live.any (sameTable row) = true
  tracked : ∀ table ∈ live, rows.any (sameTable · table) = true

theorem mem_freshRows {last : TableId} {tables : List LiveTable} {row : TrackedTable}
    (h : row ∈ freshRows last tables) :
    last < row.tableId ∧
      ∃ table ∈ tables, row = .new row.tableId table.name table.physicalId := by
  induction tables generalizing last with
  | nil => exact absurd h List.not_mem_nil
  | cons table tables ih =>
    rcases List.mem_cons.1 h with rfl | h
    · exact ⟨Int.lt_add_one_of_le (Int.le_refl _), table, List.mem_cons_self, rfl⟩
    · obtain ⟨hlt, other, hother, heq⟩ := ih h
      exact ⟨Int.lt_trans (Int.lt_add_one_of_le (Int.le_refl _)) hlt, other,
        List.mem_cons_of_mem _ hother, heq⟩

theorem exists_mem_freshRows {last : TableId} {tables : List LiveTable} {table : LiveTable}
    (h : table ∈ tables) : ∃ row ∈ freshRows last tables, sameTable row table = true := by
  induction tables generalizing last with
  | nil => exact absurd h List.not_mem_nil
  | cons first tables ih =>
    rcases List.mem_cons.1 h with rfl | h
    · exact ⟨_, List.mem_cons_self, sameTable_iff.2 ⟨rfl, rfl⟩⟩
    · obtain ⟨row, hrow, hsame⟩ : ∃ row ∈ freshRows (last + 1) tables,
          sameTable row table = true := ih h
      exact ⟨row, List.mem_cons_of_mem _ hrow, hsame⟩

/-- Where every row is a live table, insertions settle the registry. -/
theorem settled_stage_insertions {store : ShadowStore}
    (h : ∀ row ∈ store.tables, live.any (sameTable row) = true) :
    Settled live (stage live store insertions).tables := by
  rw [stage_insertions]
  refine ⟨fun row hrow => ?_, fun table htable => ?_⟩
  · rcases List.mem_append.1 hrow with hrow | hrow
    · exact h row hrow
    · obtain ⟨_, table, htable, heq⟩ := mem_freshRows hrow
      rw [heq]
      exact List.any_eq_true.2 ⟨table, (List.mem_filter.1 htable).1, sameTable_iff.2 ⟨rfl, rfl⟩⟩
  · rw [List.any_append, Bool.or_eq_true]
    by_cases hknown : store.tables.any (sameTable · table) = true
    · exact .inl hknown
    · refine .inr (List.any_eq_true.2 (exists_mem_freshRows (List.mem_filter.2 ⟨htable, ?_⟩)))
      simpa using hknown

/-- After removals every row is a live table. -/
theorem live_of_stage_removals {store : ShadowStore} (h : store.WellKeyed) :
    ∀ row ∈ (stage live store removals).tables, live.any (sameTable row) = true := by
  rw [stage_removals h]
  exact fun row hrow => (List.mem_filter.1 hrow).2

/-- The steps settle the registry, whatever it was. -/
theorem settled_applyAll_plan {store : ShadowStore} (h : store.WellKeyed) :
    Settled live (store.applyAll (plan live store)).tables := by
  have hrenamed := wellKeyed_stage h live renames
  have hrefreshed := wellKeyed_stage hrenamed live refreshes
  rw [applyAll_plan]
  exact settled_stage_insertions (live_of_stage_removals hrefreshed)

/-- In a settled registry no step has anything to change. -/
theorem decide_of_settled (hids : live.Pairwise (·.physicalId ≠ ·.physicalId))
    (h : Settled live rows) : ∀ decide ∈ steps, decide live rows = [] := by
  have hrenames : renames live rows = [] := by
    refine renames_eq_nil_iff.2 ?_
    intro row hrow table hat
    -- A row is a live table, which is the one of its physical id.
    obtain ⟨other, hother, hsame⟩ := List.any_eq_true.1 (h.isLive row hrow)
    rw [sameTable_iff] at hsame
    have hat' := (liveAt?_eq_some_iff hids).2 ⟨hother, hsame.2⟩
    rw [hat, Option.some.injEq] at hat'
    rw [hat']
    exact hsame.1
  have hrefreshes : refreshes live rows = [] := by
    -- Every live table has a row, which holds its physical id.
    refine refreshes_eq_nil_iff.2 ?_
    intro row _ table hfind
    obtain ⟨other, hother, hsame⟩ :=
      List.any_eq_true.1 (h.tracked table (mem_of_find?_name hfind).1)
    exact ⟨other, hother, (sameTable_iff.1 hsame).2.symm⟩
  have hremovals : removals live rows = [] := removals_eq_nil_iff.2 h.isLive
  have hinsertions : insertions live rows = [] := insertions_eq_nil_iff.2 h.tracked
  simp [steps, hrenames, hrefreshes, hremovals, hinsertions]

/-- In a settled registry the steps change nothing. -/
theorem plan_of_settled {store : ShadowStore}
    (hids : live.Pairwise (·.physicalId ≠ ·.physicalId)) (h : Settled live store.tables) :
    plan live store = [] :=
  planOf_eq_nil (decide_of_settled hids h)

end ShadowCatalog.Registry
