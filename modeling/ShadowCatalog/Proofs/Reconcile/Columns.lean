import Mathlib.Data.Prod.Lex
import ShadowCatalog.Proofs.DisplayOrder
import ShadowCatalog.Proofs.Reconcile.Plan
import ShadowCatalog.Reconcile.Columns

/-!
# What the column steps do

Reconciling the columns of a table follows a plan: the changes of the steps, and
then the new layout if there is one (`Columns.plan`, `Columns.follows_reconcile`).
The steps leave the rows `rowsAfter`: in the order of the live columns, for each
of them the row that was at its position, brought up to date, or a new one
(`leaves_steps`). The columns of other tables stay as they are.

So columns are *settled* after their plan (`Reconciled.settled`), and of
settled columns nothing is changed (`plan_of_settled`).
-/

namespace ShadowCatalog

/-- What is recorded of a column. -/
def TrackedColumn.description (column : TrackedColumn) : Position × String × String :=
  (column.position, column.name, column.dataType)

/-- What is to be recorded of a live column. -/
def LiveColumn.description (column : LiveColumn) : Position × String × String :=
  (column.position, column.name, column.dataType)

theorem TrackedColumn.differsFrom_eq_false_iff {column : TrackedColumn} {live : LiveColumn} :
    column.differsFrom live = false ↔ column.description = live.description := by
  simp [differsFrom, description, LiveColumn.description, and_assoc]

theorem TrackedColumn.apply_of_description_eq {column : TrackedColumn} {live : LiveColumn}
    (h : column.description = live.description) : column.apply live = column := by
  rw [description, LiveColumn.description, Prod.mk.injEq, Prod.mk.injEq] at h
  rw [TrackedColumn.apply, ← h.1, ← h.2.1, ← h.2.2]

namespace Columns

variable {σ : Type} {responder : Responder σ} {b : Backing responder} {state : σ}
  {store : ShadowStore} {table : TableId}

/-! ## The plan -/

/-- The change that a step makes, if it makes one. -/
def Step.write? (table : TableId) : Step → Option Write
  | .keep _ => none
  | .update column => some (.updateColumn column)
  | .insert column => some (.insertColumn table column)
  | .delete id => some (.deleteColumn id)

/-- The id of the row that stays after a step, if one does, where `last` is the
    last id given. -/
def Step.id? (last : ColumnId) : Step → Option ColumnId
  | .keep id => some id
  | .update column => some column.columnId
  | .insert _ => some (last + 1)
  | .delete _ => none

/-- The last id given after a step. -/
def Step.lastId (last : ColumnId) : Step → ColumnId
  | .insert _ => last + 1
  | _ => last

/-- The changes of steps. -/
def stepWrites (table : TableId) (steps : List Step) : List Write :=
  steps.filterMap (Step.write? table)

/-- The ids of the rows that stay after steps. -/
def stepIds (last : ColumnId) : List Step → List ColumnId
  | [] => []
  | step :: steps => (step.id? last).toList ++ stepIds (step.lastId last) steps

/-- The change that saves a layout, if it is new. -/
def layoutWrites (policy : OrderPolicy) (table : TrackedTable) (columnIds : IdSet) : List Write :=
  let displayOrder := policy table.displayOrder columnIds
  if columnIds ≠ table.columnIds ∨ displayOrder ≠ table.displayOrder then
    [.saveLayout table.tableId columnIds displayOrder]
  else []

/-- The changes that bring the columns of a table in line with the live ones. -/
def plan (policy : OrderPolicy) (live : List LiveColumn) (table : TrackedTable)
    (store : ShadowStore) : List Write :=
  let todo := steps (store.columnsOf table.tableId) live
  stepWrites table.tableId todo ++
    layoutWrites policy table (.ofList (stepIds store.lastColumnId todo))

theorem stepWrites_cons (step : Step) (steps : List Step) :
    stepWrites table (step :: steps) = (step.write? table).toList ++ stepWrites table steps := by
  cases step <;> rfl

theorem stepWrites_append (steps others : List Step) :
    stepWrites table (steps ++ others) = stepWrites table steps ++ stepWrites table others :=
  List.filterMap_append

/-- Ids of columns are given when rows are made. -/
theorem lastColumnId_applyAll_step {step : Step}
    (h : store.AcceptsAll (step.write? table).toList) :
    (store.applyAll (step.write? table).toList).lastColumnId = step.lastId store.lastColumnId := by
  cases step with
  | keep id => rfl
  | update column =>
    obtain ⟨⟨reply, later, hw⟩, _⟩ := h
    obtain ⟨_, rfl⟩ := ShadowStore.of_updateColumn_eq_ok hw
    change (store.apply (.updateColumn column)).lastColumnId = _
    rw [ShadowStore.apply_of_write hw]
    rfl
  | insert column =>
    obtain ⟨⟨reply, later, hw⟩, _⟩ := h
    obtain ⟨_, _, rfl⟩ := ShadowStore.of_insertColumn_eq_ok hw
    change (store.apply (.insertColumn table column)).lastColumnId = _
    rw [ShadowStore.apply_of_write hw]
    rfl
  | delete id => rfl

theorem follows_step {step : Step} (h : (b.store state).AcceptsAll (step.write? table).toList) :
    Follows b (step.perform table) state (step.write? table).toList
      (step.id? (b.store state).lastColumnId) := by
  cases step with
  | keep id => exact .pure _
  | update column =>
    obtain ⟨⟨reply, later, hw⟩, _⟩ := h
    exact (Follows.write hw).bind_pure fun _ => some column.columnId
  | insert column =>
    obtain ⟨⟨reply, later, hw⟩, _⟩ := h
    obtain ⟨_, rfl, _⟩ := ShadowStore.of_insertColumn_eq_ok hw
    exact (Follows.write hw).bind_pure some
  | delete id =>
    obtain ⟨⟨reply, later, hw⟩, _⟩ := h
    exact (Follows.write hw).bind_pure fun _ => none

theorem follows_perform {steps : List Step}
    (h : (b.store state).AcceptsAll (stepWrites table steps)) :
    Follows b (perform table steps) state (stepWrites table steps)
      (stepIds (b.store state).lastColumnId steps) := by
  induction steps generalizing state with
  | nil => exact .pure _
  | cons step steps ih =>
    rw [stepWrites_cons] at h ⊢
    obtain ⟨hstep, hsteps⟩ := ShadowStore.each_append.1 h
    refine (follows_step hstep).bind ?_
    intro middle hmiddle
    rw [← hmiddle] at hsteps
    have hlast := lastColumnId_applyAll_step hstep
    rw [← hmiddle] at hlast
    rw [stepIds, ← hlast]
    exact (ih hsteps).bind_pure _

/-- Steps only ask for changes of columns. -/
theorem asks_perform {p : Call → Prop} (hupdate : ∀ column, p (.write (.updateColumn column)))
    (hinsert : ∀ column, p (.write (.insertColumn table column)))
    (hdelete : ∀ id, p (.write (.deleteColumn id))) (steps : List Step) :
    SyncTask.Asks p (perform table steps) := by
  induction steps with
  | nil => exact .pure _
  | cons step steps ih =>
    refine .bind ?_ fun _ => ih.bind fun _ => .pure _
    cases step with
    | keep id => exact .pure _
    | update column => exact .bind (.write (hupdate column)) fun _ => .pure _
    | insert column => exact .bind (.write (hinsert column)) fun _ => .pure _
    | delete id => exact .bind (.write (hdelete id)) fun _ => .pure _

theorem follows_saveLayout {policy : OrderPolicy} {table : TrackedTable} {columnIds : IdSet}
    (h : (b.store state).AcceptsAll (layoutWrites policy table columnIds)) :
    Follows b (saveLayout policy table columnIds) state
      (layoutWrites policy table columnIds) () := by
  unfold saveLayout
  unfold layoutWrites at h ⊢
  dsimp only at h ⊢
  split
  · next hnew =>
    rw [if_pos hnew] at h
    obtain ⟨⟨reply, later, hw⟩, _⟩ := h
    exact .write hw
  · exact .pure ()

/-! ## The rows after the steps -/

/-- The rows after the steps for live columns: for each of them the row at its
    position, brought up to date, or a new row. -/
def rowsAfter (table : TableId) (last : ColumnId) (rows : List TrackedColumn) :
    List LiveColumn → List TrackedColumn
  | [] => []
  | live :: lives =>
    match rows.find? (·.position = live.position) with
    | none => .ofLive (last + 1) table live :: rowsAfter table (last + 1) rows lives
    | some row =>
      row.apply live :: rowsAfter table last (rows.filter (·.position ≠ live.position)) lives

/-- The rows after the steps describe the live columns. -/
theorem map_description_rowsAfter (table : TableId) (last : ColumnId) (rows : List TrackedColumn)
    (lives : List LiveColumn) :
    (rowsAfter table last rows lives).map (·.description) = lives.map (·.description) := by
  induction lives generalizing last rows with
  | nil => rfl
  | cons live lives ih =>
    rw [rowsAfter]
    cases rows.find? (·.position = live.position) with
    | none => exact congrArg (live.description :: ·) (ih _ _)
    | some row => exact congrArg (live.description :: ·) (ih _ _)

theorem stepIds_deletes (last : ColumnId) (rows : List TrackedColumn) (steps : List Step) :
    stepIds last (rows.map (fun row => .delete row.columnId) ++ steps) = stepIds last steps := by
  induction rows with
  | nil => rfl
  | cons row rows ih => exact ih

/-- The ids that are kept are those of the rows after the steps. -/
theorem stepIds_matchUp (table : TableId) (last : ColumnId) (rows : List TrackedColumn)
    (lives : List LiveColumn) :
    stepIds last (matchUp rows lives) = (rowsAfter table last rows lives).map (·.columnId) := by
  induction lives generalizing last rows with
  | nil => simpa [matchUp, rowsAfter, stepIds] using stepIds_deletes last rows []
  | cons live lives ih =>
    rw [matchUp, rowsAfter]
    cases rows.find? (·.position = live.position) with
    | none => exact congrArg (_ :: ·) (ih (last + 1) rows)
    | some row =>
      dsimp only
      rw [matched]
      split
      · exact congrArg (row.columnId :: ·) (ih last _)
      · exact congrArg (row.columnId :: ·) (ih last _)

/-- Changes of columns of a table, which can be made, and the rows that they leave.
    However few of them are made, nothing else is changed. -/
structure Leaves (store : ShadowStore) (table : TableId) (ws : List Write)
    (rows : List TrackedColumn) : Prop where
  accepts : store.AcceptsAll ws
  onlyFew : ∀ few, few <+: ws → ShadowStore.ColumnsOnly table store (store.applyAll few)
  perm : ((store.applyAll ws).columnsOf table).Perm rows

namespace Leaves

variable {ws vs : List Write} {rows rows' : List TrackedColumn}

theorem only (h : Leaves store table ws rows) :
    ShadowStore.ColumnsOnly table store (store.applyAll ws) :=
  h.onlyFew ws List.prefix_rfl

theorem nil (h : (store.columnsOf table).Perm rows) : Leaves store table [] rows := by
  refine ⟨trivial, fun few hfew => ?_, h⟩
  rw [List.prefix_nil.1 hfew]
  exact .refl table store

theorem cons {w : Write} (haccepts : store.Accepts w)
    (honly : ShadowStore.ColumnsOnly table store (store.apply w))
    (h : Leaves (store.apply w) table ws rows) : Leaves store table (w :: ws) rows := by
  refine ⟨⟨haccepts, h.accepts⟩, fun few hfew => ?_, h.perm⟩
  rcases List.prefix_cons_iff.1 hfew with rfl | ⟨more, rfl, hmore⟩
  · exact .refl table store
  · exact honly.trans (h.onlyFew more hmore)

theorem of_perm (h : Leaves store table ws rows) (hrows : rows.Perm rows') :
    Leaves store table ws rows' :=
  ⟨h.accepts, h.onlyFew, h.perm.trans hrows⟩

theorem append (h : Leaves store table ws rows)
    (h' : Leaves (store.applyAll ws) table vs rows') : Leaves store table (ws ++ vs) rows' := by
  refine ⟨ShadowStore.each_append.2 ⟨h.accepts, h'.accepts⟩, fun few hfew => ?_, ?_⟩
  · rcases List.prefix_or_prefix_of_prefix hfew (List.prefix_append ws vs) with hfew' | ⟨more, rfl⟩
    · exact h.onlyFew few hfew'
    · rw [ShadowStore.applyAll_append]
      exact h.only.trans (h'.onlyFew more ((List.prefix_append_right_inj ws).1 hfew))
  · rw [ShadowStore.applyAll_append]
    exact h'.perm

end Leaves

/-- The store midway through the steps for a table: `rows` are still to be matched
    with live columns, and `done` will stay as they are. -/
structure Midway (store : ShadowStore) (table : TableId) (rows done : List TrackedColumn) :
    Prop where
  keyed : store.WellKeyed
  tracked : store.hasTable table = true
  perm : (store.columnsOf table).Perm (rows ++ done)

namespace Midway

variable {rows done : List TrackedColumn} {row : TrackedColumn} {live : LiveColumn}

/-- The rows may be taken in any order. -/
theorem of_perm {rows' : List TrackedColumn} (h : Midway store table rows done)
    (hrows : rows.Perm rows') : Midway store table rows' done :=
  ⟨h.keyed, h.tracked, h.perm.trans (hrows.append_right done)⟩

theorem mem_columnsOf (h : Midway store table (row :: rows) done) :
    row ∈ store.columnsOf table :=
  h.perm.symm.subset List.mem_cons_self

/-- A row may stay. -/
theorem keep (h : Midway store table (row :: rows) done) : Midway store table rows (row :: done) :=
  ⟨h.keyed, h.tracked, h.perm.trans List.perm_middle.symm⟩

theorem insert (h : Midway store table rows done) (live : LiveColumn) :
    ShadowStore.ColumnsOnly table store (store.apply (.insertColumn table live)) ∧
      Midway (store.apply (.insertColumn table live)) table rows
        (.ofLive (store.lastColumnId + 1) table live :: done) := by
  have honly : ShadowStore.ColumnsOnly table store (store.apply (.insertColumn table live)) :=
    ShadowStore.columnsOnly_insertColumn h.tracked
  refine ⟨honly, h.keyed.apply _, (honly.hasTable_eq table).trans h.tracked, ?_⟩
  rw [ShadowStore.columnsOf_insertColumn h.tracked]
  refine (h.perm.append_right _).trans ?_
  rw [List.append_assoc]
  exact (List.perm_append_singleton _ done).append_left rows

theorem update (h : Midway store table (row :: rows) done) (live : LiveColumn) :
    ShadowStore.ColumnsOnly table store (store.apply (.updateColumn (row.apply live))) ∧
      Midway (store.apply (.updateColumn (row.apply live))) table rows
        (row.apply live :: done) := by
  have honly : ShadowStore.ColumnsOnly table store (store.apply (.updateColumn (row.apply live))) :=
    ShadowStore.columnsOnly_updateColumn h.keyed h.mem_columnsOf rfl rfl
  have hperm : ((store.apply (.updateColumn (row.apply live))).columnsOf table).Perm
      (row.apply live :: (rows ++ done)) :=
    ShadowStore.columnsOf_updateColumn_perm h.keyed h.perm rfl rfl
  exact ⟨honly, h.keyed.apply _, (honly.hasTable_eq table).trans h.tracked,
    hperm.trans List.perm_middle.symm⟩

theorem delete (h : Midway store table (row :: rows) done) :
    ShadowStore.ColumnsOnly table store (store.apply (.deleteColumn row.columnId)) ∧
      Midway (store.apply (.deleteColumn row.columnId)) table rows done := by
  have honly := ShadowStore.columnsOnly_deleteColumn h.keyed h.mem_columnsOf
  exact ⟨honly, h.keyed.apply _, (honly.hasTable_eq table).trans h.tracked,
    ShadowStore.columnsOf_deleteColumn_perm h.keyed h.perm⟩

end Midway

/-- Rows that are forgotten leave the others. -/
theorem leaves_deletes {rows done : List TrackedColumn} (h : Midway store table rows done) :
    Leaves store table (stepWrites table (rows.map fun row => .delete row.columnId)) done := by
  induction rows generalizing store with
  | nil => exact .nil h.perm
  | cons row rows ih =>
    obtain ⟨honly, hrest⟩ := h.delete
    exact .cons ⟨(), _, rfl⟩ honly (ih hrest)

theorem lastColumnId_deletes (rows : List TrackedColumn) (store : ShadowStore) :
    (store.applyAll (stepWrites table (rows.map fun row => .delete row.columnId))).lastColumnId =
      store.lastColumnId := by
  induction rows generalizing store with
  | nil => rfl
  | cons row rows ih => exact ih _

/-- Where rows differ in their positions, one at a position is all that are there. -/
theorem perm_cons_filter {rows : List TrackedColumn} {row : TrackedColumn} {position : Position}
    (hpositions : rows.Pairwise (·.position ≠ ·.position))
    (hfind : rows.find? (·.position = position) = some row) :
    row.position = position ∧ rows.Perm (row :: rows.filter (·.position ≠ position)) := by
  have hposition : row.position = position := by simpa using List.find?_some hfind
  refine ⟨hposition, ?_⟩
  have hrow := List.mem_of_find?_eq_some hfind
  rw [← hposition]
  clear hfind hposition
  induction rows with
  | nil => exact absurd hrow List.not_mem_nil
  | cons first rows ih =>
    rw [List.pairwise_cons] at hpositions
    rcases List.mem_cons.1 hrow with rfl | hrow
    · rw [List.filter_cons_of_neg (by simp), List.filter_eq_self.2]
      exact fun other hother => decide_eq_true (hpositions.1 other hother).symm
    · rw [List.filter_cons_of_pos (by simpa using hpositions.1 row hrow)]
      exact ((ih hpositions.2 hrow).cons first).trans (.swap row first _)

/-- What the steps for live columns leave, and what they do not go into. -/
theorem leaves_matchUp {rows done : List TrackedColumn} (lives : List LiveColumn)
    (h : Midway store table rows done) (hpositions : rows.Pairwise (·.position ≠ ·.position)) :
    Leaves store table (stepWrites table (matchUp rows lives))
      (rowsAfter table store.lastColumnId rows lives ++ done) := by
  induction lives generalizing store rows done with
  | nil => exact leaves_deletes h
  | cons live lives ih =>
    rw [matchUp, rowsAfter]
    cases hfind : rows.find? (·.position = live.position) with
    | none =>
      have hw : store.write (.insertColumn table live) = _ :=
        ShadowStore.write_insertColumn h.tracked
      have hlast : (store.apply (.insertColumn table live)).lastColumnId =
          store.lastColumnId + 1 := by rw [ShadowStore.apply_of_write hw]
      -- A new row is done, and gets the id after the last one.
      obtain ⟨honly, hrest⟩ := h.insert live
      have hleaves := ih hrest hpositions
      rw [hlast] at hleaves
      exact .cons ⟨_, _, hw⟩ honly (hleaves.of_perm List.perm_middle)
    | some row =>
      -- The row at the position is the only one there: it is done, and the others are
      -- still to be matched.
      have hat := h.of_perm (perm_cons_filter hpositions hfind).2
      have hpositions' := hpositions.filter (·.position ≠ live.position)
      dsimp only
      rw [matched]
      split
      · have hhas : store.hasColumn row.columnId = true :=
          ShadowStore.hasColumn_of_mem (ShadowStore.mem_columnsOf.1 hat.mem_columnsOf).1
        have hw : store.write (.updateColumn (row.apply live)) = _ :=
          ShadowStore.write_updateColumn hhas
        have hlast : (store.apply (.updateColumn (row.apply live))).lastColumnId =
            store.lastColumnId := by rw [ShadowStore.apply_of_write hw]
        obtain ⟨honly, hrest⟩ := hat.update live
        have hleaves := ih hrest hpositions'
        rw [hlast] at hleaves
        exact .cons ⟨_, _, hw⟩ honly (hleaves.of_perm List.perm_middle)
      · next hsame =>
        rw [TrackedColumn.apply_of_description_eq
          (TrackedColumn.differsFrom_eq_false_iff.1 (Bool.eq_false_iff.2 hsame))]
        exact (ih hat.keep hpositions').of_perm List.perm_middle

/-! ## Rows at one position -/

/-- Of rows in any order, some are the first at their position and the others
    repeat one. -/
theorem repeats_append_firsts_perm (seen : List Position) (rows : List TrackedColumn) :
    (repeats seen rows ++ firsts seen rows).Perm rows := by
  induction rows generalizing seen with
  | nil => exact .nil
  | cons row rows ih =>
    rw [repeats, firsts]
    split
    · exact (ih seen).cons row
    · exact List.perm_middle.trans ((ih _).cons row)

theorem not_mem_of_mem_firsts {seen : List Position} {rows : List TrackedColumn}
    {row : TrackedColumn} (h : row ∈ firsts seen rows) : row.position ∉ seen := by
  induction rows generalizing seen with
  | nil => exact absurd h List.not_mem_nil
  | cons first rows ih =>
    rw [firsts] at h
    split at h
    · exact ih h
    · next hfree =>
      rcases List.mem_cons.1 h with rfl | h
      · exact hfree
      · exact fun hseen => ih h (List.mem_cons_of_mem _ hseen)

theorem firsts_pairwise (seen : List Position) (rows : List TrackedColumn) :
    (firsts seen rows).Pairwise (·.position ≠ ·.position) := by
  induction rows generalizing seen with
  | nil => exact .nil
  | cons row rows ih =>
    rw [firsts]
    split
    · exact ih seen
    · refine List.pairwise_cons.2 ⟨fun other hother heq => ?_, ih _⟩
      exact not_mem_of_mem_firsts hother (heq ▸ List.mem_cons_self)

/-- Rows that differ in their positions are all first. -/
theorem firsts_eq_self {seen : List Position} {rows : List TrackedColumn}
    (h : rows.Pairwise (·.position ≠ ·.position)) (hseen : ∀ row ∈ rows, row.position ∉ seen) :
    firsts seen rows = rows ∧ repeats seen rows = [] := by
  induction rows generalizing seen with
  | nil => exact ⟨rfl, rfl⟩
  | cons row rows ih =>
    rw [List.pairwise_cons] at h
    rw [List.forall_mem_cons] at hseen
    have hrest : ∀ other ∈ rows, other.position ∉ row.position :: seen := fun other hother =>
      List.not_mem_cons_of_ne_of_not_mem (h.1 other hother).symm (hseen.2 other hother)
    rw [firsts, repeats, if_neg hseen.1, if_neg hseen.1, (ih h.2 hrest).1, (ih h.2 hrest).2]
    exact ⟨rfl, rfl⟩

/-- The rows that the steps match with live columns. -/
def candidates (rows : List TrackedColumn) : List TrackedColumn :=
  firsts [] (rows.mergeSort comesFirst)

/-- Of the rows at its position, a row has the least id. -/
def Lasting (rows : List TrackedColumn) (row : TrackedColumn) : Prop :=
  row ∈ rows ∧ ∀ other ∈ rows, other.position = row.position → row.columnId ≤ other.columnId

/-- Rows are compared by position, and then by id. -/
theorem comesFirst_iff {a b : TrackedColumn} :
    comesFirst a b = true ↔ toLex (a.position, a.columnId) ≤ toLex (b.position, b.columnId) := by
  rw [Prod.Lex.toLex_le_toLex, comesFirst, Bool.or_eq_true, Bool.and_eq_true, decide_eq_true_iff,
    decide_eq_true_iff, decide_eq_true_iff]

/-- Rows are sorted by position, and then by id. -/
theorem sorted_mergeSort (rows : List TrackedColumn) :
    (rows.mergeSort comesFirst).Pairwise fun a b => comesFirst a b = true := by
  have htrans (a b c : TrackedColumn) (hab : comesFirst a b = true) (hbc : comesFirst b c = true) :
      comesFirst a c = true :=
    comesFirst_iff.2 (le_trans (comesFirst_iff.1 hab) (comesFirst_iff.1 hbc))
  have htotal (a b : TrackedColumn) : (comesFirst a b || comesFirst b a) = true := by
    rw [Bool.or_eq_true, comesFirst_iff, comesFirst_iff]
    exact le_total _ _
  exact List.pairwise_mergeSort htrans htotal rows

theorem pairwise_mergeSort (rows : List TrackedColumn) :
    (rows.mergeSort comesFirst).Pairwise fun a b =>
      a.position = b.position → a.columnId ≤ b.columnId := by
  refine (sorted_mergeSort rows).imp ?_
  intro a b hab heq
  rcases Prod.Lex.toLex_le_toLex.1 (comesFirst_iff.1 hab) with hlt | ⟨_, hle⟩
  · exact absurd heq (ne_of_lt hlt)
  · exact hle

/-- Where rows are sorted, the one with the least id at its position is the first
    there. -/
theorem Lasting.mem_firsts {seen : List Position} {rows : List TrackedColumn} {row : TrackedColumn}
    (h : Lasting rows row) (hids : (rows.map (·.columnId)).Nodup)
    (hsorted : rows.Pairwise fun a b => a.position = b.position → a.columnId ≤ b.columnId)
    (hseen : row.position ∉ seen) : row ∈ firsts seen rows := by
  obtain ⟨hrow, hleast⟩ := h
  induction rows generalizing seen with
  | nil => exact absurd hrow List.not_mem_nil
  | cons first rows ih =>
    rw [List.map_cons, List.nodup_cons] at hids
    rw [List.pairwise_cons] at hsorted
    rw [List.forall_mem_cons] at hleast
    rw [firsts]
    rcases List.mem_cons.1 hrow with rfl | hrow
    · rw [if_neg hseen]
      exact List.mem_cons_self
    -- A first row at the same position would have the least id as well.
    · have hne : row.position ≠ first.position := fun heq => by
        have hle := hsorted.1 row hrow heq.symm
        have hid : first.columnId = row.columnId := Int.le_antisymm hle (hleast.1 heq.symm)
        exact hids.1 (hid ▸ List.mem_map_of_mem hrow)
      split
      · exact ih hids.2 hsorted.2 hseen hrow hleast.2
      · exact List.mem_cons_of_mem _ (ih hids.2 hsorted.2
          (List.not_mem_cons_of_ne_of_not_mem hne hseen) hrow hleast.2)

theorem Lasting.mem_candidates {rows : List TrackedColumn} {row : TrackedColumn}
    (h : Lasting rows row) (hids : (rows.map (·.columnId)).Nodup) : row ∈ candidates rows := by
  have hperm := List.mergeSort_perm rows comesFirst
  have hlasting : Lasting (rows.mergeSort comesFirst) row :=
    ⟨hperm.mem_iff.2 h.1, fun other hother => h.2 other (hperm.mem_iff.1 hother)⟩
  exact hlasting.mem_firsts ((hperm.map _).nodup_iff.2 hids) (pairwise_mergeSort rows)
    List.not_mem_nil

/-- A row at the position of a live column is brought up to date. -/
theorem apply_mem_rowsAfter {last : ColumnId} {rows : List TrackedColumn} {lives : List LiveColumn}
    {row : TrackedColumn} {live : LiveColumn} (hrows : rows.Pairwise (·.position ≠ ·.position))
    (hlives : lives.Pairwise (·.position ≠ ·.position)) (hrow : row ∈ rows) (hlive : live ∈ lives)
    (hat : row.position = live.position) : row.apply live ∈ rowsAfter table last rows lives := by
  induction lives generalizing last rows with
  | nil => exact absurd hlive List.not_mem_nil
  | cons first lives ih =>
    rw [List.pairwise_cons] at hlives
    rw [rowsAfter]
    rcases List.mem_cons.1 hlive with rfl | hlive
    · rw [(find?_key_eq_some_iff TrackedColumn.position hrows).2 ⟨hrow, hat⟩]
      exact List.mem_cons_self
    · cases rows.find? (·.position = first.position) with
      | none => exact List.mem_cons_of_mem _ (ih hrows hlives.2 hrow hlive)
      | some other =>
        have hne : row.position ≠ first.position := fun heq =>
          hlives.1 live hlive (heq.symm.trans hat)
        exact List.mem_cons_of_mem _ (ih (hrows.filter _) hlives.2
          (List.mem_filter.2 ⟨hrow, decide_eq_true hne⟩) hlive)

/-- Before the steps for a table, the rows that repeat a position are still to be
    forgotten, and the candidates to be matched. -/
theorem midway_columnsOf (h : store.WellKeyed) (htable : store.hasTable table = true) :
    Midway store table (repeats [] ((store.columnsOf table).mergeSort comesFirst))
      (candidates (store.columnsOf table)) :=
  ⟨h, htable, ((repeats_append_firsts_perm [] _).trans
    (List.mergeSort_perm (store.columnsOf table) comesFirst)).symm⟩

/-- When those rows are forgotten, the candidates are still to be matched. -/
theorem midway_candidates (h : store.WellKeyed) (htable : store.hasTable table = true) :
    let deletes := stepWrites table
      ((repeats [] ((store.columnsOf table).mergeSort comesFirst)).map fun row =>
        .delete row.columnId)
    Leaves store table deletes (candidates (store.columnsOf table)) ∧
      Midway (store.applyAll deletes) table (candidates (store.columnsOf table)) [] := by
  have hdeletes := leaves_deletes (midway_columnsOf h htable)
  refine ⟨hdeletes, h.applyAll _, (hdeletes.only.hasTable_eq table).trans htable, ?_⟩
  rw [List.append_nil]
  exact hdeletes.perm

/-- The steps for a table leave one row for each live column. -/
theorem leaves_steps (h : store.WellKeyed) (htable : store.hasTable table = true)
    (lives : List LiveColumn) :
    Leaves store table (stepWrites table (steps (store.columnsOf table) lives))
      (rowsAfter table store.lastColumnId (candidates (store.columnsOf table)) lives) := by
  obtain ⟨hdeletes, hcandidates⟩ := midway_candidates h htable
  have hmatched := leaves_matchUp lives hcandidates (firsts_pairwise [] _)
  rw [lastColumnId_deletes, List.append_nil] at hmatched
  rw [steps, stepWrites_append]
  exact hdeletes.append hmatched

theorem stepIds_steps (table : TableId) (last : ColumnId) (rows : List TrackedColumn)
    (lives : List LiveColumn) :
    stepIds last (steps rows lives) =
      (rowsAfter table last (candidates rows) lives).map (·.columnId) := by
  rw [steps, stepIds_deletes, stepIds_matchUp table]
  rfl

/-! ## The layout -/

/-- A table with the layout for its columns. -/
def laidOut (policy : OrderPolicy) (columnIds : IdSet) (table : TrackedTable) : TrackedTable :=
  { table with columnIds, displayOrder := policy table.displayOrder columnIds }

theorem acceptsAll_layoutWrites (policy : OrderPolicy) (columnIds : IdSet) {table : TrackedTable}
    (h : store.hasTable table.tableId = true) :
    store.AcceptsAll (layoutWrites policy table columnIds) := by
  unfold layoutWrites
  dsimp only
  split
  · exact ⟨⟨_, _, ShadowStore.write_saveLayout h⟩, trivial⟩
  · exact trivial

/-- The layout is saved, or is as it should be. -/
theorem applyAll_layoutWrites (policy : OrderPolicy) (columnIds : IdSet) {table : TrackedTable}
    (h : store.WellKeyed) (htable : table ∈ store.tables) :
    (store.applyAll (layoutWrites policy table columnIds)).tables =
        ShadowStore.changeRow table.tableId (fun _ => laidOut policy columnIds table)
          store.tables ∧
      (store.applyAll (layoutWrites policy table columnIds)).columns = store.columns := by
  have honly (row : TrackedTable) (hrow : row ∈ store.tables) (hid : row.tableId = table.tableId) :
      row = table := h.table_eq hrow htable hid
  unfold layoutWrites
  dsimp only
  split
  · next hnew =>
    have hw : store.write (.saveLayout table.tableId columnIds
        (policy table.displayOrder columnIds)) = _ :=
      ShadowStore.write_saveLayout (ShadowStore.hasTable_iff.2 ⟨table, htable, rfl⟩)
    rw [ShadowStore.applyAll_cons, ShadowStore.applyAll_nil, ShadowStore.apply_of_write hw]
    refine ⟨ShadowStore.changeRow_congr fun row hrow hid => ?_, rfl⟩
    rw [honly row hrow hid]
    rfl
  · next hsame =>
    -- A layout that is not new is the one that the table has.
    rw [not_or, not_ne_iff, not_ne_iff] at hsame
    have hlaid : laidOut policy columnIds table = table := by
      rw [laidOut, hsame.2, hsame.1]
    rw [ShadowStore.applyAll_nil, hlaid]
    refine ⟨((ShadowStore.changeRow_congr fun row hrow hid => ?_).trans
      (ShadowStore.changeRow_id table.tableId _)).symm, rfl⟩
    exact (honly row hrow hid).symm

/-! ## The steps and the layout together -/

/-- The plan for the columns of a table can be made. -/
theorem acceptsAll_plan (h : store.WellKeyed) (policy : OrderPolicy) (lives : List LiveColumn)
    {table : TrackedTable} (htable : store.hasTable table.tableId = true) :
    store.AcceptsAll (plan policy lives table store) := by
  have hsteps := leaves_steps h htable lives
  exact ShadowStore.each_append.2 ⟨hsteps.accepts,
    acceptsAll_layoutWrites policy _ ((hsteps.only.hasTable_eq _).trans htable)⟩

/-- The columns of a table are listed, the live ones and the rows. -/
def listing (table : TrackedTable) : SyncTask (List LiveColumn × List TrackedColumn) := do
  let live ← SyncTask.ask (.liveColumns table.name)
  let rows ← SyncTask.ask (.trackedColumns table.tableId)
  return (live, rows)

theorem reconcile_eq (policy : OrderPolicy) (table : TrackedTable) :
    reconcile policy table = listing table >>= fun listed =>
      perform table.tableId (steps listed.2 listed.1) >>= fun ids =>
        saveLayout policy table (.ofList ids) := by
  simp only [reconcile, listing, bind_assoc, pure_bind]

theorem follows_listing (table : TrackedTable) :
    Follows b (listing table) state []
      ((b.live state).columns table.name, (b.store state).columnsOf table.tableId) := by
  have hlive : Follows b (SyncTask.ask (.liveColumns table.name)) state []
      ((b.live state).columns table.name) := .ask (fun _ hw => by cases hw) rfl
  refine hlive.bind_quiet ?_
  intro first hfirst
  have hrows : Follows b (SyncTask.ask (.trackedColumns table.tableId)) first []
      ((b.store first).columnsOf table.tableId) := .ask (fun _ hw => by cases hw) rfl
  rw [ShadowStore.applyAll_nil] at hfirst
  rw [hfirst] at hrows
  exact hrows.bind_pure _

/-- The call at which steps break off asks for a change. -/
theorem exists_write_of_breaksOff {steps : List Step} {report : SyncReport}
    {turns : List (Turn σ)} {made : List Write} {call : Call} {middle : σ} {error : Error}
    (h : BreaksOff b (perform table steps) report state turns made call middle error) :
    ∃ w, call = .write w := by
  have hasks : SyncTask.Asks (fun call => ∃ w, call = .write w) (perform table steps) :=
    asks_perform (fun _ => ⟨_, rfl⟩) (fun _ => ⟨_, rfl⟩) (fun _ => ⟨_, rfl⟩) steps
  have hlast : ⟨call, middle⟩ ∈ (perform table steps).course responder report state := by
    rw [h.course_eq]
    exact List.mem_append_right _ (List.mem_singleton_self _)
  exact (hasks report).of_mem_course _ hlast

/-- A layout that is new is saved by one call, before which nothing is changed. -/
theorem saveLayout_cases {policy : OrderPolicy} {table : TrackedTable} {columnIds : IdSet}
    (h : (b.store state).AcceptsAll (layoutWrites policy table columnIds)) (report : SyncReport) :
    (∃ later, Finishes b (saveLayout policy table columnIds) report state
      (layoutWrites policy table columnIds) () later) ∨
    ∃ turns w middle error, BreaksOff b (saveLayout policy table columnIds) report state turns []
      (.write w) middle error := by
  rcases follows_saveLayout h report with hdone | ⟨turns, made, call, middle, error, _, hbreaks⟩
  · exact .inl hdone
  · refine .inr ?_
    have hcourse := hbreaks.course_eq
    unfold saveLayout at hcourse
    dsimp only at hcourse
    split at hcourse
    · have hcourse : [] ++ [⟨.write _, state⟩] = turns ++ [⟨call, middle⟩] := hcourse
      obtain ⟨rfl, hlast⟩ := List.append_inj' hcourse rfl
      cases hlast
      have hpassage := hbreaks.passage
      cases hpassage
      exact ⟨_, _, _, _, hbreaks⟩
    · have hcourse : [] = turns ++ [⟨call, middle⟩] := hcourse
      exact absurd hcourse (by simp)

/-- The columns of a table are reconciled as planned, or a call is struck before the
    layout is saved; if that call is a question, nothing has been changed. -/
theorem reconcile_cases (h : (b.store state).WellKeyed) (policy : OrderPolicy)
    {table : TrackedTable} (htable : (b.store state).hasTable table.tableId = true)
    (report : SyncReport) :
    (∃ later, Finishes b (reconcile policy table) report state
      (plan policy ((b.live state).columns table.name) table (b.store state)) () later) ∨
    ∃ turns few call middle error,
      few <+: stepWrites table.tableId (steps ((b.store state).columnsOf table.tableId)
        ((b.live state).columns table.name)) ∧
      ((∀ w, call ≠ .write w) → few = []) ∧
      BreaksOff b (reconcile policy table) report state turns few call middle error := by
  obtain ⟨hsteps, hlayout⟩ := ShadowStore.each_append.1
    (acceptsAll_plan h policy ((b.live state).columns table.name) htable)
  rw [reconcile_eq]
  rcases follows_listing table report with ⟨first, hlisting⟩ |
    ⟨turns, few, call, middle, error, hfew, hbreaks⟩
  · have hfirst : b.store first = b.store state := hlisting.passage.store_eq
    have hperform := follows_perform (hfirst ▸ hsteps)
    rw [hfirst] at hperform
    rcases hperform report with ⟨second, hperform⟩ |
      ⟨turns, few, call, middle, error, hfew, hbreaks⟩
    · have hsecond := hperform.passage.store_eq
      rw [hfirst] at hsecond
      rcases saveLayout_cases (hsecond ▸ hlayout) (report.countingAll _) with ⟨later, hsave⟩ |
        ⟨turns, w, middle, error, hbreaks⟩
      · exact .inl ⟨later, hlisting.bind (hperform.bind hsave)⟩
      · refine .inr ⟨_, _, _, _, _, ?_, fun hread => absurd rfl (hread w),
          hlisting.bind_breaksOff (hperform.bind_breaksOff hbreaks)⟩
        simp only [List.nil_append, List.append_nil, List.prefix_rfl]
    · obtain ⟨w, rfl⟩ := exists_write_of_breaksOff hbreaks
      exact .inr ⟨_, few, .write w, middle, error, hfew, fun hread => absurd rfl (hread w),
        hlisting.bind_breaksOff (hbreaks.bind _)⟩
  · have hnone := List.prefix_nil.1 hfew
    rw [hnone] at hbreaks
    exact .inr ⟨turns, [], call, middle, error, List.nil_prefix, fun _ => rfl, hbreaks.bind _⟩

/-- Reconciling the columns of a table follows its plan. -/
theorem follows_reconcile (h : (b.store state).WellKeyed) (policy : OrderPolicy)
    {table : TrackedTable} (htable : (b.store state).hasTable table.tableId = true) :
    Follows b (reconcile policy table) state
      (plan policy ((b.live state).columns table.name) table (b.store state)) () := by
  intro report
  rcases reconcile_cases h policy htable report with hdone |
    ⟨turns, few, call, middle, error, hfew, _, hbreaks⟩
  · exact .inl hdone
  · exact .inr ⟨turns, few, call, middle, error, hfew.trans (List.prefix_append _ _), hbreaks⟩

/-- The store after the columns of a table were reconciled. -/
structure Reconciled (policy : OrderPolicy) (lives : List LiveColumn) (table : TrackedTable)
    (before after : ShadowStore) : Prop where
  tables : ∃ columnIds,
    after.tables = ShadowStore.changeRow table.tableId (fun _ => laidOut policy columnIds table)
      before.tables ∧
    ∀ id, id ∈ columnIds ↔ ∃ row ∈ after.columnsOf table.tableId, row.columnId = id
  described : ((after.columnsOf table.tableId).map (·.description)).Perm
    (lives.map (·.description))
  columnsOf : ∀ other, other ≠ table.tableId → after.columnsOf other = before.columnsOf other

/-- The rows that the plan for the columns of a table leaves there and elsewhere. -/
theorem columnsOf_applyAll_plan (h : store.WellKeyed) (policy : OrderPolicy)
    (lives : List LiveColumn) {table : TrackedTable} (htable : table ∈ store.tables) :
    ((store.applyAll (plan policy lives table store)).columnsOf table.tableId).Perm
        (rowsAfter table.tableId store.lastColumnId
          (candidates (store.columnsOf table.tableId)) lives) ∧
      ∀ other, other ≠ table.tableId →
        (store.applyAll (plan policy lives table store)).columnsOf other =
          store.columnsOf other := by
  have hsteps := leaves_steps h (ShadowStore.hasTable_iff.2 ⟨table, htable, rfl⟩) lives
  obtain ⟨_, hcolumns⟩ := applyAll_layoutWrites policy
    (.ofList (stepIds store.lastColumnId (steps (store.columnsOf table.tableId) lives)))
    (h.applyAll _) (hsteps.only.tables ▸ htable)
  -- A layout has nothing to do with the rows of columns.
  have hcolumnsOf (other : TableId) :
      (store.applyAll (plan policy lives table store)).columnsOf other =
        (store.applyAll (stepWrites table.tableId
          (steps (store.columnsOf table.tableId) lives))).columnsOf other := by
    rw [plan, ShadowStore.applyAll_append, ShadowStore.columnsOf, hcolumns]
    rfl
  refine ⟨hcolumnsOf table.tableId ▸ hsteps.perm, fun other hne => ?_⟩
  rw [hcolumnsOf]
  exact hsteps.only.columnsOf other hne

/-- The plan for the columns of a table reconciles them. -/
theorem reconciled_applyAll_plan (h : store.WellKeyed) (policy : OrderPolicy)
    (lives : List LiveColumn) {table : TrackedTable} (htable : table ∈ store.tables) :
    Reconciled policy lives table store (store.applyAll (plan policy lives table store)) := by
  have hsteps := leaves_steps h (ShadowStore.hasTable_iff.2 ⟨table, htable, rfl⟩) lives
  obtain ⟨htables, _⟩ := applyAll_layoutWrites policy
    (.ofList (stepIds store.lastColumnId (steps (store.columnsOf table.tableId) lives)))
    (h.applyAll _) (hsteps.only.tables ▸ htable)
  rw [hsteps.only.tables, ← ShadowStore.applyAll_append] at htables
  obtain ⟨hperm, hothers⟩ := columnsOf_applyAll_plan h policy lives htable
  refine ⟨⟨_, htables, fun id => ?_⟩, map_description_rowsAfter _ _ _ lives ▸ hperm.map _, hothers⟩
  rw [IdSet.mem_ofList, stepIds_steps table.tableId, List.mem_map]
  exact exists_congr fun row => and_congr_left fun _ => hperm.mem_iff.symm

/-- A row with the least id at the position of a live column is kept there. -/
theorem apply_mem_columnsOf_applyAll_plan (h : store.WellKeyed) (policy : OrderPolicy)
    {lives : List LiveColumn} {table : TrackedTable} (htable : table ∈ store.tables)
    (hlives : lives.Pairwise (·.position ≠ ·.position)) {row : TrackedColumn} {live : LiveColumn}
    (hrow : Lasting (store.columnsOf table.tableId) row) (hlive : live ∈ lives)
    (hat : row.position = live.position) :
    row.apply live ∈
      (store.applyAll (plan policy lives table store)).columnsOf table.tableId := by
  rw [(columnsOf_applyAll_plan h policy lives htable).1.mem_iff]
  exact apply_mem_rowsAfter (firsts_pairwise [] _) hlives
    (hrow.mem_candidates (h.columnsOf_nodup _)) hlive hat

theorem Reconciled.alike {policy : OrderPolicy} {lives : List LiveColumn} {table : TrackedTable}
    {before after : ShadowStore} (h : Reconciled policy lives table before after) {other : TableId}
    (hne : other ≠ table.tableId) : ShadowStore.Alike other before after := by
  refine ⟨fun row hid => ?_, h.columnsOf other hne⟩
  obtain ⟨columnIds, htables, _⟩ := h.tables
  rw [htables, ShadowStore.mem_changeRow]
  constructor
  · rintro (⟨hrow, _⟩ | ⟨_, _, _, rfl⟩)
    · exact hrow
    · exact absurd hid.symm hne
  · exact fun hrow => .inl ⟨hrow, hid ▸ hne⟩

theorem eq_nil_or_eq_of_isPrefix_layoutWrites {policy : OrderPolicy} {table : TrackedTable}
    {columnIds : IdSet} {few : List Write} (h : few <+: layoutWrites policy table columnIds) :
    few = [] ∨ few = layoutWrites policy table columnIds := by
  unfold layoutWrites at h ⊢
  dsimp only at h ⊢
  split at h
  · next hnew =>
    rw [if_pos hnew]
    exact (List.prefix_cons_iff.1 h).imp_right fun ⟨more, heq, hmore⟩ => by
      rw [heq, List.prefix_nil.1 hmore]
  · exact .inl (List.prefix_nil.1 h)

/-- However much of the plan for the columns of a table is made, other tables stay as they
    are. -/
theorem alike_applyAll_of_isPrefix (h : store.WellKeyed) {policy : OrderPolicy}
    {lives : List LiveColumn} {table : TrackedTable} (htable : table ∈ store.tables)
    {few : List Write} (hfew : few <+: plan policy lives table store) {other : TableId}
    (hne : other ≠ table.tableId) : ShadowStore.Alike other store (store.applyAll few) := by
  have hsteps := leaves_steps h (ShadowStore.hasTable_iff.2 ⟨table, htable, rfl⟩) lives
  rcases List.prefix_or_prefix_of_prefix hfew (List.prefix_append _ _) with hfew' | ⟨more, rfl⟩
  · exact (hsteps.onlyFew few hfew').alike hne
  · rcases eq_nil_or_eq_of_isPrefix_layoutWrites ((List.prefix_append_right_inj _).1 hfew) with
      rfl | rfl
    · rw [List.append_nil]
      exact hsteps.only.alike hne
    · exact (reconciled_applyAll_plan h policy lives htable).alike hne

/-! ## Settled columns -/

/-- The rows of a table describe its live columns, and the layout is that of these
    rows. -/
structure Settled (policy : OrderPolicy) (lives : List LiveColumn) (table : TrackedTable)
    (rows : List TrackedColumn) : Prop where
  described : (rows.map (·.description)).Perm (lives.map (·.description))
  columnIds : ∀ id, id ∈ table.columnIds ↔ ∃ row ∈ rows, row.columnId = id
  displayOrder : policy table.displayOrder table.columnIds = table.displayOrder

/-- Columns are settled when they are reconciled, if the policy leaves its own
    orders as they are. -/
theorem Reconciled.settled {policy : OrderPolicy} {lives : List LiveColumn} {table : TrackedTable}
    {before after : ShadowStore} (h : Reconciled policy lives table before after)
    (hpolicy : policy.Stable) {row : TrackedTable}
    (hrow : row ∈ after.tables) (hid : row.tableId = table.tableId) :
    Settled policy lives row (after.columnsOf table.tableId) := by
  obtain ⟨columnIds, htables, hids⟩ := h.tables
  rw [htables, ShadowStore.mem_changeRow] at hrow
  obtain ⟨_, hne⟩ | ⟨_, _, _, rfl⟩ := hrow
  · exact absurd hid hne
  · exact ⟨h.described, hids, hpolicy _ _⟩

theorem pairwise_position_of_described {rows : List TrackedColumn} {lives : List LiveColumn}
    (hlives : lives.Pairwise (·.position ≠ ·.position))
    (h : (rows.map (·.description)).Perm (lives.map (·.description))) :
    rows.Pairwise (·.position ≠ ·.position) := by
  have hpositions := h.map Prod.fst
  rw [List.map_map, List.map_map] at hpositions
  exact List.pairwise_map.1 (hpositions.symm.nodup (List.pairwise_map.2 hlives))

/-- Rows that describe the live columns are all kept. -/
theorem stepWrites_matchUp_eq_nil {rows : List TrackedColumn} {lives : List LiveColumn}
    (hpositions : rows.Pairwise (·.position ≠ ·.position))
    (hlives : lives.Pairwise (·.position ≠ ·.position))
    (h : (rows.map (·.description)).Perm (lives.map (·.description))) :
    stepWrites table (matchUp rows lives) = [] := by
  induction lives generalizing rows with
  | nil =>
    rw [List.map_nil, List.perm_nil, List.map_eq_nil_iff] at h
    rw [h]
    rfl
  | cons live lives ih =>
    rw [matchUp]
    cases hfind : rows.find? (·.position = live.position) with
    | none =>
      obtain ⟨row, hrow, hsame⟩ := List.mem_map.1 (h.symm.subset List.mem_cons_self)
      have hat : row.position = live.position := congrArg Prod.fst hsame
      exact absurd hat (by simpa using List.find?_eq_none.1 hfind row hrow)
    | some row =>
      obtain ⟨hposition, hperm⟩ := perm_cons_filter hpositions hfind
      have hrow := List.mem_of_find?_eq_some hfind
      -- The row describes some live column, which is at its position.
      have hsame : row.description = live.description := by
        obtain ⟨other, hother, heq⟩ := List.mem_map.1 (h.subset (List.mem_map_of_mem hrow))
        have hat : other.position = live.position := (congrArg Prod.fst heq).trans hposition
        rw [← heq, List.inj_on_of_nodup_map (List.pairwise_map.2 hlives) hother
          List.mem_cons_self hat]
      have hsplit := hperm.map (·.description)
      rw [List.map_cons, hsame] at hsplit
      -- So the rest of the rows describes the rest of the live columns.
      have hrest := (hsplit.symm.trans h).cons_inv
      have hkeep : matched row live = .keep row.columnId := by
        rw [matched, TrackedColumn.differsFrom_eq_false_iff.2 hsame]
        rfl
      dsimp only
      rw [hkeep]
      exact ih (hpositions.filter _) hlives.of_cons hrest

/-- Of settled columns nothing is changed. -/
theorem plan_of_settled {policy : OrderPolicy} {lives : List LiveColumn} {table : TrackedTable}
    (hkeyed : store.WellKeyed) (htable : table ∈ store.tables)
    (hlives : lives.Pairwise (·.position ≠ ·.position))
    (h : Settled policy lives table (store.columnsOf table.tableId)) :
    plan policy lives table store = [] := by
  have hrows := List.mergeSort_perm (store.columnsOf table.tableId) comesFirst
  -- No two rows are at one position, so that none of them repeats another.
  have hsorted := hrows.symm.pairwise (pairwise_position_of_described hlives h.described)
    (fun hne heq => hne heq.symm)
  obtain ⟨hfirsts, hrepeats⟩ := firsts_eq_self hsorted fun _ _ => List.not_mem_nil
  have hnone : stepWrites table.tableId (steps (store.columnsOf table.tableId) lives) = [] := by
    rw [steps, hfirsts, hrepeats]
    exact stepWrites_matchUp_eq_nil hsorted hlives ((hrows.map _).trans h.described)
  have hleft := (leaves_steps hkeyed (ShadowStore.hasTable_iff.2 ⟨table, htable, rfl⟩) lives).perm
  rw [hnone, ShadowStore.applyAll_nil] at hleft
  -- The rows that stay are all of the rows, and so the ids are those of the layout.
  have hids : IdSet.ofList (stepIds store.lastColumnId
      (steps (store.columnsOf table.tableId) lives)) = table.columnIds := by
    refine IdSet.ext ?_
    intro id
    rw [IdSet.mem_ofList, stepIds_steps table.tableId, List.mem_map, h.columnIds]
    exact exists_congr fun row => and_congr_left fun _ => hleft.mem_iff.symm
  rw [plan, hnone, hids, layoutWrites, h.displayOrder]
  exact if_neg fun hnew => hnew.elim (absurd rfl) (absurd rfl)

end Columns

end ShadowCatalog
