import Mathlib.Data.Finset.Max
import ShadowCatalog.Proofs.Memory.World
import ShadowCatalog.Proofs.Reconcile.Columns

/-!
# Live columns and their rows

A row and a live column belong together by their position alone. When the columns of a
table are reconciled and no call fails, the rows *match* the live columns
(`Columns.reconcile_matches`): there is one row for each of them, whatever rows there were
before. It has the id of the row that had the least id at that position, and a new id if
there was none (`Columns.Matched`). A column that was renamed, or got another type, or
changed its name with another one, so keeps its id.

The rows at a position from which the steps choose may come in any order, and any number
of them; the one with the least id is the only candidate (`Lasting.of_mem_candidates`).
-/

namespace ShadowCatalog.Columns

variable {σ : Type} {responder : Responder σ} {state : σ} {policy : OrderPolicy}
  {store : ShadowStore} {table : TrackedTable} {rows : List TrackedColumn}
  {lives : List LiveColumn} {row : TrackedColumn}

/-- The rows of a table match the live columns, and have the layout for them; nothing else
    was changed. -/
structure Matched (policy : OrderPolicy) (lives : List LiveColumn) (table : TrackedTable)
    (before after : ShadowStore) : Prop where
  /-- The rows have the positions, names and types of the live columns. -/
  described : ((after.columnsOf table.tableId).map (·.description)).Perm
    (lives.map (·.description))
  /-- No two rows are at one position. -/
  positions : (after.columnsOf table.tableId).Pairwise (·.position ≠ ·.position)
  /-- No two rows have one id. -/
  ids : (after.columnsOf table.tableId).Pairwise (·.columnId ≠ ·.columnId)
  /-- A row has the least id that was there at its position, or, if there was none, one that
      was never given before. -/
  origin : ∀ row ∈ after.columnsOf table.tableId,
    (∃ old, Lasting (before.columnsOf table.tableId) old ∧ old.position = row.position ∧
      old.columnId = row.columnId) ∨
    (∀ old ∈ before.columnsOf table.tableId, old.position ≠ row.position) ∧
      before.lastColumnId < row.columnId
  /-- The table takes the ids of the rows as its columns, in the order that the policy makes
      of the one it had. Otherwise it is as it was, and so are the other tables. -/
  tables : after.tables = ShadowStore.changeRow table.tableId
    (fun _ => { table with
      columnIds := .ofList ((after.columnsOf table.tableId).map (·.columnId))
      displayOrder := policy table.displayOrder
        (.ofList ((after.columnsOf table.tableId).map (·.columnId))) })
    before.tables
  /-- The columns of other tables are as they were. -/
  others : ∀ other, other ≠ table.tableId → after.columnsOf other = before.columnsOf other

/-! ## Candidates -/

theorem exists_lasting (h : row ∈ rows) :
    ∃ first, Lasting rows first ∧ first.position = row.position := by
  obtain ⟨first, hfirst, hleast⟩ :=
    (rows.filter (·.position = row.position)).toFinset.exists_min_image (·.columnId)
      ⟨row, by simp [h]⟩
  simp only [List.mem_toFinset, List.mem_filter, decide_eq_true_iff] at hfirst hleast
  exact ⟨first, ⟨hfirst.1, fun other hother hat => hleast other ⟨hother, hat.trans hfirst.2⟩⟩,
    hfirst.2⟩

theorem candidates_subset (rows : List TrackedColumn) : candidates rows ⊆ rows := by
  intro row hrow
  have hsorted := (repeats_append_firsts_perm [] (rows.mergeSort comesFirst)).subset
    (List.mem_append_right _ hrow)
  exact (List.mergeSort_perm rows comesFirst).subset hsorted

/-- A candidate has the least id at its position. -/
theorem Lasting.of_mem_candidates (hids : (rows.map (·.columnId)).Nodup)
    (h : row ∈ candidates rows) : Lasting rows row := by
  -- The row that has the least id there is a candidate too, and there is but one.
  obtain ⟨first, hfirst, hat⟩ := exists_lasting (candidates_subset rows h)
  have hsame : first = row :=
    List.inj_on_of_nodup_map (List.pairwise_map.2 (firsts_pairwise [] _))
      (hfirst.mem_candidates hids) h hat
  exact hsame ▸ hfirst

/-! ## The rows that are left -/

/-- A row after the steps is at the position of a live column. -/
theorem exists_position_of_mem_rowsAfter {table : TableId} {last : ColumnId}
    (h : row ∈ rowsAfter table last rows lives) : ∃ live ∈ lives, live.position = row.position := by
  have hmem := List.mem_map_of_mem (f := TrackedColumn.description) h
  rw [map_description_rowsAfter] at hmem
  obtain ⟨live, hlive, heq⟩ := List.mem_map.1 hmem
  exact ⟨live, hlive, congrArg Prod.fst heq⟩

/-- A row after the steps has the id of a row that was at its position, or a new one if there
    was no such row. -/
theorem origin_of_mem_rowsAfter {table : TableId} {last : ColumnId}
    (hlives : lives.Pairwise (·.position ≠ ·.position))
    (h : row ∈ rowsAfter table last rows lives) :
    (∃ old ∈ rows, old.position = row.position ∧ old.columnId = row.columnId) ∨
      (∀ old ∈ rows, old.position ≠ row.position) ∧ last < row.columnId := by
  induction lives generalizing last rows with
  | nil => exact absurd h List.not_mem_nil
  | cons live lives ih =>
    rw [List.pairwise_cons] at hlives
    rw [rowsAfter] at h
    cases hfind : rows.find? (·.position = live.position) with
    | none =>
      rw [hfind] at h
      rcases List.mem_cons.1 h with rfl | h
      · refine .inr ⟨fun old hold hat => ?_, Int.lt_succ last⟩
        exact absurd (decide_eq_true hat) (List.find?_eq_none.1 hfind old hold)
      · refine (ih hlives.2 h).imp_right ?_
        rintro ⟨hfree, hlast⟩
        exact ⟨hfree, (Int.lt_succ last).trans hlast⟩
    | some old =>
      rw [hfind] at h
      rcases List.mem_cons.1 h with rfl | h
      · have hat : old.position = live.position := by simpa using List.find?_some hfind
        exact .inl ⟨old, List.mem_of_find?_eq_some hfind, hat, rfl⟩
      -- The rows that are taken out are at the position of the first live column, and this
      -- row is at that of a later one.
      · obtain ⟨later, hlater, hat⟩ := exists_position_of_mem_rowsAfter h
        refine (ih hlives.2 h).imp ?_ ?_
        · rintro ⟨other, hother, hsame⟩
          exact ⟨other, (List.mem_filter.1 hother).1, hsame⟩
        · rintro ⟨hfree, hlast⟩
          refine ⟨fun other hother hsame => ?_, hlast⟩
          refine hfree other (List.mem_filter.2 ⟨hother, decide_eq_true ?_⟩) hsame
          exact fun heq => hlives.1 later hlater (heq.symm.trans (hsame.trans hat.symm))

/-- The plan for the columns of a table makes its rows match the live columns. -/
theorem matched_applyAll_plan (h : store.WellKeyed) (policy : OrderPolicy)
    (htable : table ∈ store.tables) (hlives : lives.Pairwise (·.position ≠ ·.position)) :
    Matched policy lives table store (store.applyAll (plan policy lives table store)) := by
  obtain ⟨⟨columnIds, htables, hids⟩, hdescribed, hothers⟩ :=
    reconciled_applyAll_plan h policy lives htable
  have hrows := (columnsOf_applyAll_plan h policy lives htable).1
  have hkeyed := h.applyAll (plan policy lives table store)
  have hset : columnIds = .ofList
      (((store.applyAll (plan policy lives table store)).columnsOf table.tableId).map
        (·.columnId)) :=
    IdSet.ext fun id => by rw [hids, IdSet.mem_ofList, List.mem_map]
  refine ⟨hdescribed, pairwise_position_of_described hlives hdescribed,
    List.pairwise_map.1 (hkeyed.columnsOf_nodup _), fun row hrow => ?_, ?_, hothers⟩
  · have hnodup := h.columnsOf_nodup table.tableId
    refine (origin_of_mem_rowsAfter hlives (hrows.subset hrow)).imp ?_ ?_
    · rintro ⟨old, hold, hat, hid⟩
      exact ⟨old, .of_mem_candidates hnodup hold, hat, hid⟩
    -- A row at the position would be one with the least id, and so a candidate.
    · rintro ⟨hfree, hlast⟩
      refine ⟨fun old hold hat => ?_, hlast⟩
      obtain ⟨first, hfirst, hat'⟩ := exists_lasting hold
      exact hfree first (hfirst.mem_candidates hnodup) (hat'.trans hat)
  · rw [← hset]
    exact htables

/-- The columns of a table are reconciled unless a call fails, and then its rows match the
    live columns. -/
theorem reconcile_matches (b : Backing responder) (policy : OrderPolicy)
    (hreach : (b.store state).Reachable) (htable : table ∈ (b.store state).tables)
    (hlives : ((b.live state).columns table.name).Pairwise (·.position ≠ ·.position))
    (report : SyncReport) :
    let left := (reconcile policy table).perform responder report state
    (left.1.1 = .ok () ↔
        Unfailing responder ((reconcile policy table).course responder report state)) ∧
      (left.1.1 = .ok () →
        Matched policy ((b.live state).columns table.name) table (b.store state)
          (b.store left.2)) := by
  have hkeyed := hreach.wellKeyed
  rcases follows_reconcile hkeyed policy (ShadowStore.hasTable_iff.2 ⟨table, htable, rfl⟩) report
    with ⟨later, hpassage, hrun⟩ | ⟨turns, few, call, middle, error, -, hbreaks⟩
  · rw [hrun]
    dsimp only
    rw [hpassage.store_eq]
    exact ⟨iff_of_true rfl hpassage.reply_eq,
      fun _ => matched_applyAll_plan hkeyed policy htable hlives⟩
  -- The call at which the steps break off is one of their calls.
  · rw [hbreaks.perform_eq, hbreaks.course_eq]
    dsimp only
    have hnot : ¬Unfailing responder (turns ++ [⟨call, middle⟩]) := fun hunfailing => by
      obtain ⟨reply, hreply⟩ := hunfailing _ (List.mem_append_right _ (List.mem_singleton_self _))
      exact absurd (hbreaks.struck.1.symm.trans hreply) (by simp)
    exact ⟨iff_of_false (by simp) hnot, fun hok => absurd hok (by simp)⟩

/-- A table with two rows at one position and one at a position that is gone, whose columns
    have swapped their names and got a third one, and whose layout lists what is not there. -/
def disordered : World where
  live.entries := [⟨⟨1, "a"⟩, [⟨1, "y", "int", false, none, true, none⟩,
    ⟨2, "x", "text", true, none, false, none⟩, ⟨4, "z", "date", true, none, false, none⟩]⟩]
  store := ShadowStore.applyAll {} [
    .insertTable "a" 1, .insertTable "b" 2,
    .insertColumn 1 ⟨2, "y", "text", true, none, false, none⟩,
    .insertColumn 1 ⟨2, "y", "int", true, none, false, none⟩,
    .insertColumn 1 ⟨1, "x", "int", true, none, false, none⟩,
    .insertColumn 1 ⟨7, "w", "text", true, none, false, none⟩,
    .insertColumn 2 ⟨1, "q", "int", true, none, false, none⟩,
    .saveLayout 1 (.ofList [2, 4, 9]) [4, 3, 9, 3]]

theorem reconcile_matches_disordered :
    ∃ table report later, table ∈ disordered.store.tables ∧
      (reconcile DisplayOrder.merge table).perform World.respond {} disordered =
        ((.ok (), report), later) ∧
      later.store.columns = [⟨1, 1, 2, "x", "text"⟩, ⟨3, 1, 1, "y", "int"⟩, ⟨5, 2, 1, "q", "int"⟩,
        ⟨6, 1, 4, "z", "date"⟩] ∧
      later.store.tables.map (·.displayOrder) = [[3, 1, 6], []] ∧
      Matched DisplayOrder.merge (disordered.view.columns "a") table disordered.store
        later.store := by
  let table : TrackedTable := ⟨1, "a", 1, .ofList [2, 4, 9], [4, 3, 9, 3], none⟩
  have hreach : (World.backing.store disordered).Reachable := ShadowStore.Reachable.empty.applyAll _
  have htable : table ∈ (World.backing.store disordered).tables := by decide +kernel
  have hlive : disordered.view.Distinct := World.view_distinct (by decide) (by decide)
  have hlives := hlive.positions "a"
  have hdone :
      ((reconcile DisplayOrder.merge table).perform World.respond {} disordered).1.1 = .ok () := by
    cbv
  have hmatched :=
    (reconcile_matches World.backing DisplayOrder.merge hreach htable hlives {}).2 hdone
  exact ⟨table, _, _, htable, Prod.ext (Prod.ext hdone rfl) rfl, by cbv, by cbv, hmatched⟩

end ShadowCatalog.Columns
