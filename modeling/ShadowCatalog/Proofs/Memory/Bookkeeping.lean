import ShadowCatalog.Proofs.Memory.Coherence
import ShadowCatalog.Proofs.Memory.Departure
import ShadowCatalog.Proofs.Memory.World

/-!
# The books of a shadow catalog

A shadow catalog in memory that starts out empty keeps its books, whatever it is asked, as
long as a column that is updated stays in its table (`World.keeps_books`):

* In each of its states each row is found under its own id, each column is one of a tracked
  table, and of the tables of one name the one with the least id goes by it
  (`ShadowStore.Kept`).
* New ids ascend, so that no id is given twice, not even that of a row that is gone.
* A call fails if and only if the row that it changes is missing, and then nothing changes
  (`Turn.Booked`). A change that is made is counted, and of the rows it touches only the one
  that it names, and the columns of a table that it deletes (`ShadowStore.Amended`).

What one call does is shown first, for each kind of change. Four kinds change the row of a
table and differ in what they change of it (`Write.rowChange?`), so that they are one case.
-/

namespace ShadowCatalog

/-! ## What a change names -/

namespace Write

/-- The row of a table that is changed, and how. -/
def rowChange? : Write → Option (TableId × (TrackedTable → TrackedTable))
  | .renameTable table name => some (table, ({ · with name }))
  | .updatePhysicalId table physicalId => some (table, ({ · with physicalId }))
  | .saveLayout table columnIds displayOrder => some (table, ({ · with columnIds, displayOrder }))
  | .setLabelColumn table labelColumn => some (table, ({ · with labelColumn }))
  | .insertTable .. | .deleteTable _ | .insertColumn .. | .updateColumn _ | .deleteColumn _ => none

/-- The table whose row a change is about. That of a new row is in the reply. -/
def namedTable? : (w : Write) → w.Reply → Option TableId
  | .insertTable .., id => some id
  | .deleteTable table, _ => some table
  | .renameTable table _, _ => some table
  | .updatePhysicalId table _, _ => some table
  | .saveLayout table _ _, _ => some table
  | .setLabelColumn table _, _ => some table
  | .insertColumn .., _ | .updateColumn _, _ | .deleteColumn _, _ => none

/-- The column whose row a change is about. -/
def namedColumn? : (w : Write) → w.Reply → Option ColumnId
  | .insertColumn .., id => some id
  | .updateColumn column, _ => some column.columnId
  | .deleteColumn column, _ => some column
  | _, _ => none

/-- The row that a change needs is not there: its own, or that of the table of a new column.
    A new table needs none, and neither does a removal. -/
def Lacks (store : ShadowStore) : Write → Prop
  | .insertTable .. | .deleteTable _ | .deleteColumn _ => False
  | .renameTable table _ | .updatePhysicalId table _ | .saveLayout table _ _
  | .setLabelColumn table _ | .insertColumn table _ => ∀ row ∈ store.tables, row.tableId ≠ table
  | .updateColumn column => ∀ row ∈ store.columns, row.columnId ≠ column.columnId

/-- What a change of another kind than those of the row of a table leaves behind: a new row,
    or a row less. -/
def Leaves (later : ShadowStore) : (w : Write) → w.Reply → Prop
  | .insertTable name physicalId, id => .new id name physicalId ∈ later.tables
  | .deleteTable table, _ => ∀ row ∈ later.tables, row.tableId ≠ table
  | .insertColumn table column, id => .ofLive id table column ∈ later.columns
  | .updateColumn column, _ => column ∈ later.columns
  | .deleteColumn column, _ => ∀ row ∈ later.columns, row.columnId ≠ column
  | _, _ => True

end Write

namespace ShadowStore

/-- A change was made and counted, and nothing was touched but the row that it names, and the
    columns of a table that is deleted. -/
structure Amended (store later : ShadowStore) (w : Write) (reply : w.Reply) : Prop where
  counted : later.writes = store.writes + 1
  tables : ∀ row : TrackedTable, w.namedTable? reply ≠ some row.tableId →
    (row ∈ later.tables ↔ row ∈ store.tables)
  columns : ∀ column : TrackedColumn, w.namedColumn? reply ≠ some column.columnId →
    (column ∈ later.columns ↔ column ∈ store.columns ∧ w ≠ .deleteTable column.tableId)
  changed : ∀ table change, w.rowChange? = some (table, change) →
    ∃ row ∈ store.tables, row.tableId = table ∧ change row ∈ later.tables
  leaves : w.Leaves later reply

/-- Each row stands in its place, under its own id, and is found there; each column is one of
    a tracked table; and a name is that of the first table that has it. -/
structure Kept (store : ShadowStore) : Prop where
  tables : store.tables.Pairwise (·.tableId < ·.tableId)
  columns : store.columns.Pairwise (·.columnId < ·.columnId)
  findTable : ∀ row ∈ store.tables, store.tables.find? (·.tableId = row.tableId) = some row
  findColumn : ∀ row ∈ store.columns, store.columns.find? (·.columnId = row.columnId) = some row
  tracked : store.Tracked
  named : ∀ name row, store.tableNamed? name = some row ↔
    row ∈ store.tables ∧ row.name = name ∧
      ∀ other ∈ store.tables, other.name = name → row.tableId ≤ other.tableId

variable {store later : ShadowStore} {w : Write}

/-! ## One change -/

/-- Where the row of a table is to be changed, there is one or there is none. -/
theorem write_of_rowChange {table : TableId} {change : TrackedTable → TrackedTable}
    (h : w.rowChange? = some (table, change)) {reply : w.Reply}
    (hw : store.write w = .ok (reply, later)) :
    store.hasTable table = true ∧
      later = { store with
        tables := changeRow table change store.tables
        writes := store.writes + 1 } := by
  cases w with
  | renameTable _ _ => cases h; exact of_changeTable_eq_ok hw
  | updatePhysicalId _ _ => cases h; exact of_changeTable_eq_ok hw
  | saveLayout _ _ _ => cases h; exact of_changeTable_eq_ok hw
  | setLabelColumn _ _ => cases h; exact of_changeTable_eq_ok hw
  | _ => cases h

/-- The row of a table keeps its id when it is changed. -/
theorem tableId_of_rowChange {table : TableId} {change : TrackedTable → TrackedTable}
    (h : w.rowChange? = some (table, change)) (row : TrackedTable) :
    (change row).tableId = row.tableId := by
  cases w with
  | renameTable _ _ => cases h; rfl
  | updatePhysicalId _ _ => cases h; rfl
  | saveLayout _ _ _ => cases h; rfl
  | setLabelColumn _ _ => cases h; rfl
  | _ => cases h

/-- A change of the row of a table names the table and no column. -/
theorem named_of_rowChange {table : TableId} {change : TrackedTable → TrackedTable}
    (h : w.rowChange? = some (table, change)) (reply : w.Reply) :
    w.namedTable? reply = some table ∧ (∀ id, w ≠ .deleteTable id) ∧ w.Leaves later reply := by
  cases w with
  | renameTable _ _ => cases h; exact ⟨rfl, nofun, trivial⟩
  | updatePhysicalId _ _ => cases h; exact ⟨rfl, nofun, trivial⟩
  | saveLayout _ _ _ => cases h; exact ⟨rfl, nofun, trivial⟩
  | setLabelColumn _ _ => cases h; exact ⟨rfl, nofun, trivial⟩
  | _ => cases h

theorem amended_of_rowChange {table : TableId} {change : TrackedTable → TrackedTable}
    (h : w.rowChange? = some (table, change)) {reply : w.Reply}
    (hw : store.write w = .ok (reply, later)) : store.Amended later w reply := by
  obtain ⟨hhas, rfl⟩ := write_of_rowChange h hw
  obtain ⟨hnamed, hkeeps, hleaves⟩ := named_of_rowChange h reply
  refine ⟨rfl, fun row hrow => ?_, fun column _ => ?_, fun table' change' h' => ?_, hleaves⟩
  · rw [hnamed, Ne, Option.some_inj] at hrow
    refine mem_changeRow.trans ⟨?_, fun hmem => .inl ⟨hmem, Ne.symm hrow⟩⟩
    rintro (⟨hmem, _⟩ | ⟨old, _, hid, rfl⟩)
    · exact hmem
    · exact absurd (hid.symm.trans (tableId_of_rowChange h old).symm) hrow
  · exact (and_iff_left (hkeeps column.tableId)).symm
  · cases h.symm.trans h'
    obtain ⟨row, hmem, hid⟩ := hasTable_iff.1 hhas
    exact ⟨row, hmem, hid, mem_changeRow.2 (.inr ⟨row, hmem, hid, rfl⟩)⟩

/-- What is known of each change that was made. -/
theorem amended_of_write {reply : w.Reply} (hw : store.write w = .ok (reply, later)) :
    store.Amended later w reply := by
  cases hchange : w.rowChange? with
  | some changed => exact amended_of_rowChange hchange hw
  | none =>
    cases w with
    | insertTable name physicalId =>
      cases hw
      refine ⟨rfl, fun row hrow => ?_, fun column _ => ?_, nofun, ?_⟩
      · refine List.mem_append.trans (or_iff_left fun hnew => hrow ?_)
        rw [List.mem_singleton.1 hnew]
        rfl
      · exact (and_iff_left nofun).symm
      · exact List.mem_append_right _ (List.mem_singleton_self _)
    | deleteTable table =>
      cases hw
      refine ⟨rfl, fun row hrow => ?_, fun column _ => ?_, nofun, fun row hrow => ?_⟩
      · rw [deleteTable, List.mem_filter, decide_eq_true_iff]
        exact and_iff_left fun heq => hrow (congrArg some heq.symm)
      · rw [deleteTable, List.mem_filter, decide_eq_true_iff, Ne, Ne, Write.deleteTable.injEq,
          eq_comm]
      · exact of_decide_eq_true (List.mem_filter.1 hrow).2
    | insertColumn table live =>
      obtain ⟨_, rfl, rfl⟩ := of_insertColumn_eq_ok hw
      refine ⟨rfl, fun row _ => .rfl, fun column hcolumn => ?_, nofun, ?_⟩
      · rw [List.mem_append, List.mem_singleton, and_iff_left nofun]
        refine or_iff_left ?_
        rintro rfl
        exact hcolumn rfl
      · exact List.mem_append_right _ (List.mem_singleton_self _)
    | updateColumn updated =>
      obtain ⟨hhas, rfl⟩ := of_updateColumn_eq_ok hw
      refine ⟨rfl, fun row _ => .rfl, fun column hcolumn => ?_, nofun, ?_⟩
      · have hne : column.columnId ≠ updated.columnId := fun heq => hcolumn (congrArg some heq.symm)
        rw [List.mem_map, and_iff_left nofun]
        constructor
        · rintro ⟨old, hold, rfl⟩
          split at hne
          · exact absurd rfl hne
          · next hother => rwa [if_neg hother]
        · exact fun hmem => ⟨column, hmem, if_neg hne⟩
      · obtain ⟨old, hold, hid⟩ := List.any_eq_true.1 hhas
        exact List.mem_map.2 ⟨old, hold, if_pos (of_decide_eq_true hid)⟩
    | deleteColumn id =>
      cases hw
      refine ⟨rfl, fun row _ => .rfl, fun column hcolumn => ?_, nofun, fun row hrow => ?_⟩
      · have hkeeps : Write.deleteColumn id ≠ .deleteTable column.tableId := nofun
        rw [deleteColumn, List.mem_filter, decide_eq_true_iff, and_iff_left hkeeps]
        exact and_iff_left fun heq => hcolumn (congrArg some heq.symm)
      · exact of_decide_eq_true (List.mem_filter.1 hrow).2
    | _ => cases hchange

/-- A change of the row of a table fails if and only if there is none. -/
theorem changeTable_error_iff {table : TableId} {change : TrackedTable → TrackedTable} :
    (∃ cause, (store.changeTable table change).map ((), ·) = .error cause) ↔
      ∀ row ∈ store.tables, row.tableId ≠ table := by
  cases hhas : store.hasTable table with
  | true =>
    obtain ⟨row, hrow, hid⟩ := hasTable_iff.1 hhas
    rw [changeTable_of_hasTable _ hhas]
    exact iff_of_false nofun fun hnone => hnone row hrow hid
  | false =>
    rw [changeTable_of_not_hasTable _ hhas]
    refine iff_of_true ⟨_, rfl⟩ fun row hrow hid => ?_
    exact Bool.false_ne_true (hhas.symm.trans (hasTable_iff.2 ⟨row, hrow, hid⟩))

theorem insertColumn_error_iff {table : TableId} {column : LiveColumn} :
    (∃ cause, store.insertColumn table column = .error cause) ↔
      ∀ row ∈ store.tables, row.tableId ≠ table := by
  unfold insertColumn
  split
  · next hhas =>
    obtain ⟨row, hrow, hid⟩ := hasTable_iff.1 hhas
    exact iff_of_false nofun fun hnone => hnone row hrow hid
  · next hhas =>
    exact iff_of_true ⟨_, rfl⟩ fun row hrow hid => hhas (hasTable_iff.2 ⟨row, hrow, hid⟩)

theorem updateColumn_error_iff {column : TrackedColumn} :
    (∃ cause, (store.updateColumn column).map ((), ·) = .error cause) ↔
      ∀ row ∈ store.columns, row.columnId ≠ column.columnId := by
  unfold updateColumn
  split
  · next hhas =>
    obtain ⟨row, hrow, hid⟩ := List.any_eq_true.1 hhas
    exact iff_of_false nofun fun hnone => hnone row hrow (of_decide_eq_true hid)
  · next hhas =>
    exact iff_of_true ⟨_, rfl⟩ fun row hrow hid =>
      hhas (List.any_eq_true.2 ⟨row, hrow, decide_eq_true hid⟩)

/-- A change fails if and only if the row that it needs is not there. -/
theorem write_error_iff : (∃ cause, store.write w = .error cause) ↔ w.Lacks store := by
  cases w with
  | insertTable _ _ => exact iff_of_false nofun id
  | deleteTable _ => exact iff_of_false nofun id
  | deleteColumn _ => exact iff_of_false nofun id
  | insertColumn _ _ => exact insertColumn_error_iff
  | updateColumn _ => exact updateColumn_error_iff
  | _ => exact changeTable_error_iff

/-! ## The rows -/

/-- A change that leaves columns in their tables leaves them in tracked ones. -/
theorem Tracked.write (h : store.Tracked) (hkeeps : store.KeepsTable w) {reply : w.Reply}
    (hw : store.write w = .ok (reply, later)) : later.Tracked := by
  cases hchange : w.rowChange? with
  | some changed =>
    obtain ⟨_, rfl⟩ := write_of_rowChange hchange hw
    exact h.changeRow (tableId_of_rowChange hchange) _
  | none =>
    cases w with
    | insertTable name physicalId =>
      cases hw
      exact h.insertTable name physicalId
    | deleteTable table =>
      cases hw
      exact h.deleteTable table
    | insertColumn table column =>
      obtain ⟨htable, _, rfl⟩ := of_insertColumn_eq_ok hw
      exact h.insertColumn htable _ _ _
    | updateColumn column =>
      obtain ⟨_, rfl⟩ := of_updateColumn_eq_ok hw
      exact h.updateColumn hkeeps _
    | deleteColumn column =>
      cases hw
      exact h.deleteColumn column
    | _ => cases hchange

/-- Where rows ascend, the first one that has a property is the least one. -/
theorem find?_eq_some_iff_least {rows : List TrackedTable}
    (h : rows.Pairwise (·.tableId < ·.tableId)) {p : TrackedTable → Bool} {row : TrackedTable} :
    rows.find? p = some row ↔
      row ∈ rows ∧ p row = true ∧ ∀ other ∈ rows, p other = true → row.tableId ≤ other.tableId := by
  have hleast {first : TrackedTable} (hfirst : rows.find? p = some first) :
      ∀ other ∈ rows, p other = true → first.tableId ≤ other.tableId := by
    obtain ⟨_, before, after, rfl, hbefore⟩ := List.find?_eq_some_iff_append.1 hfirst
    rw [List.pairwise_append, List.pairwise_cons] at h
    intro other hother hp
    rcases List.mem_append.1 hother with hmem | hmem
    · exact absurd hp (by simpa using hbefore other hmem)
    · rcases List.mem_cons.1 hmem with rfl | hmem
      · exact Int.le_refl _
      · exact Int.le_of_lt (h.2.1.1 other hmem)
  refine ⟨fun hfirst => ⟨List.mem_of_find?_eq_some hfirst, List.find?_some hfirst, hleast hfirst⟩,
    fun ⟨hrow, hp, hothers⟩ => ?_⟩
  cases hfind : rows.find? p with
  | none => exact absurd hp (List.find?_eq_none.1 hfind row hrow)
  | some first =>
    have hmem := List.mem_of_find?_eq_some hfind
    have hid : first.tableId = row.tableId :=
      Int.le_antisymm (hleast hfind row hrow hp) (hothers first hmem (List.find?_some hfind))
    have hnodup : (rows.map (·.tableId)).Nodup :=
      List.pairwise_map.2 (h.imp fun hlt => Int.ne_of_lt hlt)
    rw [List.inj_on_of_nodup_map hnodup hmem hrow hid]

/-- Where the rows are in order and columns are in their tables, the books are kept. -/
theorem WellKeyed.kept (h : store.WellKeyed) (htracked : store.Tracked) : store.Kept where
  tables := h.tables
  columns := h.columns
  findTable row hrow :=
    (find?_key_eq_some_iff (·.tableId) (h.tables.imp fun hlt => Int.ne_of_lt hlt)).2 ⟨hrow, rfl⟩
  findColumn row hrow :=
    (find?_key_eq_some_iff (·.columnId) (h.columns.imp fun hlt => Int.ne_of_lt hlt)).2 ⟨hrow, rfl⟩
  tracked := htracked
  named name row := by
    rw [tableNamed?, find?_eq_some_iff_least h.tables]
    simp only [decide_eq_true_eq]

end ShadowStore

/-! ## Calls, one after the other -/

/-- A call that is put to the shadow catalog. -/
def Call.ToStore : Call → Prop
  | .trackedTables | .trackedTable _ | .trackedColumns _ | .write _ => True
  | .liveTables | .liveColumns _ | .foreignKeys _ => False

instance : DecidablePred Call.ToStore
  | .trackedTables | .trackedTable _ | .trackedColumns _ | .write _ => .isTrue trivial
  | .liveTables | .liveColumns _ | .foreignKeys _ => .isFalse id

namespace World

/-- The catalogs answer, and no fault strikes. -/
def answering : Responder World := fun call world => world.answer call

/-- The turns of calls that are asked one after the other. -/
def turns (world : World) : List Call → List (Turn World)
  | [] => []
  | call :: calls => ⟨call, world⟩ :: (world.answer call).2.turns calls

/-- The world after calls, one after the other. -/
def after (world : World) (calls : List Call) : World :=
  calls.foldl (fun world call => (world.answer call).2) world

end World

namespace Turn

/-- The id that is given to a table. -/
def newTableId? : Turn World → Option TableId
  | ⟨.write (.insertTable name physicalId), world⟩ =>
    (world.answer (.write (.insertTable name physicalId))).1.toOption
  | _ => none

/-- The id that is given to a column. -/
def newColumnId? : Turn World → Option ColumnId
  | ⟨.write (.insertColumn table column), world⟩ =>
    (world.answer (.write (.insertColumn table column))).1.toOption
  | _ => none

/-- The call asks for a change, and the row that it needs is not there. -/
def Lacks (turn : Turn World) : Prop := ∃ w, turn.call = .write w ∧ w.Lacks turn.before.store

/-- If the call asks for a change, it leaves each column in its table. -/
def KeepsTable (turn : Turn World) : Prop :=
  ∀ w, turn.call = .write w → turn.before.store.KeepsTable w

instance (turn : Turn World) : Decidable turn.KeepsTable :=
  match turn with
  | ⟨.write w, world⟩ =>
    decidable_of_iff (world.store.KeepsTable w)
      ⟨fun h _ hw => Call.write.inj hw ▸ h, fun h => h w rfl⟩
  | ⟨.liveTables, _⟩ | ⟨.liveColumns _, _⟩ | ⟨.foreignKeys _, _⟩ | ⟨.trackedTables, _⟩
  | ⟨.trackedTable _, _⟩ | ⟨.trackedColumns _, _⟩ => .isTrue nofun

/-- What a call does to the shadow catalog is in its books. -/
structure Booked (turn : Turn World) : Prop where
  fails : (∃ error, turn.reply World.answering = .error error) ↔ turn.Lacks
  unchanged : ∀ error, turn.reply World.answering = .error error →
    turn.after World.answering = turn.before
  read : (∀ w, turn.call ≠ .write w) → turn.after World.answering = turn.before
  found : ∀ name world, turn = ⟨.trackedTable name, world⟩ →
    (world.answer (.trackedTable name)).1 = .ok (world.store.tableNamed? name)
  amended : ∀ w world reply later, turn = ⟨.write w, world⟩ →
    world.answer (.write w) = (.ok reply, later) → world.store.Amended later.store w reply

end Turn

namespace World

variable {world : World}

/-- A change is made, or it fails and nothing happens. -/
theorem answer_write_cases (world : World) (w : Write) :
    (∃ reply store log, world.store.write w = .ok (reply, store) ∧
        world.answer (.write w) = (.ok reply, { world with store, log })) ∨
      ∃ cause, world.store.write w = .error cause ∧
        world.answer (.write w) = (.error (.catalog cause), world) := by
  cases hw : world.store.write w with
  | ok answered => exact .inl ⟨answered.1, answered.2, _, rfl, by rw [answer, hw]⟩
  | error cause => exact .inr ⟨cause, rfl, by rw [answer, hw]⟩

/-- The turn of a change is in the books. -/
theorem booked_write (world : World) (w : Write) : Turn.Booked ⟨.write w, world⟩ := by
  have hlacks : Turn.Lacks ⟨.write w, world⟩ ↔ ∃ cause, world.store.write w = .error cause := by
    rw [ShadowStore.write_error_iff]
    refine ⟨?_, fun h => ⟨w, rfl, h⟩⟩
    rintro ⟨_, hcall, h⟩
    cases hcall
    exact h
  rcases world.answer_write_cases w with ⟨reply, store, log, hw, hanswer⟩ | ⟨cause, hw, hanswer⟩
  · have hreply : Turn.reply answering ⟨.write w, world⟩ = .ok reply := congrArg Prod.fst hanswer
    refine ⟨iff_of_false ?_ ?_, ?_, fun h => absurd rfl (h w), nofun, ?_⟩
    · rw [hreply]
      exact nofun
    · rw [hlacks, hw]
      exact nofun
    · rw [hreply]
      exact nofun
    · intro _ _ _ later hturn hmade
      cases hturn
      cases hanswer.symm.trans hmade
      exact ShadowStore.amended_of_write hw
  · have hreply : Turn.reply answering ⟨.write w, world⟩ = .error (.catalog cause) :=
      congrArg Prod.fst hanswer
    refine ⟨iff_of_true ⟨_, hreply⟩ (hlacks.2 ⟨cause, hw⟩), fun _ _ => ?_,
      fun h => absurd rfl (h w), nofun, ?_⟩
    · exact congrArg Prod.snd hanswer
    · intro _ _ _ later hturn hmade
      cases hturn
      cases hanswer.symm.trans hmade

/-- The turn of a call to the shadow catalog is in the books. -/
theorem booked_of_toStore {call : Call} (h : call.ToStore) (world : World) :
    Turn.Booked ⟨call, world⟩ := by
  have hread (hcall : ∀ w, call ≠ .write w) (hok : ∀ error, (world.answer call).1 ≠ .error error)
      (hafter : (world.answer call).2 = world)
      (hfound : ∀ name, call = .trackedTable name →
        (world.answer (.trackedTable name)).1 = .ok (world.store.tableNamed? name)) :
      Turn.Booked ⟨call, world⟩ := by
    refine ⟨iff_of_false (fun ⟨error, herror⟩ => hok error herror) ?_, fun _ _ => hafter,
      fun _ => hafter, ?_, ?_⟩
    · exact fun ⟨w, hw, _⟩ => hcall w hw
    · intro name _ hturn
      cases hturn
      exact hfound name rfl
    · intro w _ _ _ hturn
      cases hturn
      exact absurd rfl (hcall w)
  cases call with
  | write w => exact world.booked_write w
  | trackedTables => exact hread nofun nofun rfl nofun
  | trackedTable name => exact hread nofun nofun rfl fun _ _ => rfl
  | trackedColumns table => exact hread nofun nofun rfl nofun
  | _ => exact h.elim

/-- What changes keep, and no call puts an end to but by a change. -/
theorem answer_preserves {p : ShadowStore → Prop} {call : Call}
    (h : ∀ w reply later, call = .write w → world.store.write w = .ok (reply, later) → p later)
    (hp : p world.store) : p (world.answer call).2.store := by
  cases call with
  | write w =>
    rcases world.answer_write_cases w with ⟨reply, store, log, hw, hanswer⟩ | ⟨_, _, hanswer⟩
    · rw [hanswer]
      exact h w reply store rfl hw
    · rwa [hanswer]
  | _ => exact hp

/-- Neither counter goes back. -/
theorem counters_of_answer (world : World) (call : Call) :
    world.store.lastTableId ≤ (world.answer call).2.store.lastTableId ∧
      world.store.lastColumnId ≤ (world.answer call).2.store.lastColumnId := by
  refine answer_preserves (p := fun later =>
    world.store.lastTableId ≤ later.lastTableId ∧ world.store.lastColumnId ≤ later.lastColumnId)
    (fun _ _ _ _ hw => ?_) ⟨Int.le_refl _, Int.le_refl _⟩
  exact (ShadowStore.counters_of_write hw).2

/-! ## New ids -/

/-- Where a call gives ids from above a counter, and moves it up to them, ids ascend. -/
theorem pairwise_newIds (last : World → Int) {new? : Turn World → Option Int}
    (hlast : ∀ world call, last world ≤ last (World.answer world call).2)
    (hnew : ∀ call world id, new? ⟨call, world⟩ = some id →
      last world < id ∧ id ≤ last (world.answer call).2)
    (world : World) (calls : List Call) :
    (∀ id ∈ (world.turns calls).filterMap new?, last world < id) ∧
      ((world.turns calls).filterMap new?).Pairwise (· < ·) := by
  induction calls generalizing world with
  | nil => exact ⟨nofun, .nil⟩
  | cons call calls ih =>
    obtain ⟨habove, hpairwise⟩ := ih (world.answer call).2
    have hlater := fun id hid => Int.lt_of_le_of_lt (hlast world call) (habove id hid)
    rw [turns]
    cases hid : new? ⟨call, world⟩ with
    | none =>
      rw [List.filterMap_cons_none hid]
      exact ⟨hlater, hpairwise⟩
    | some id =>
      obtain ⟨hlt, hle⟩ := hnew call world id hid
      rw [List.filterMap_cons_some hid, List.forall_mem_cons, List.pairwise_cons]
      exact ⟨⟨hlt, hlater⟩, fun other hother => Int.lt_of_le_of_lt hle (habove other hother),
        hpairwise⟩

/-- A table has the id that is next. -/
theorem of_newTableId?_eq_some {call : Call} {id : TableId}
    (h : Turn.newTableId? ⟨call, world⟩ = some id) :
    id = world.store.lastTableId + 1 ∧ id = (world.answer call).2.store.lastTableId := by
  unfold Turn.newTableId? at h
  split at h
  · next hturn =>
    cases hturn
    cases h
    exact ⟨rfl, rfl⟩
  · cases h

/-- A column has the id that is next, if there is its table. -/
theorem of_newColumnId?_eq_some {call : Call} {id : ColumnId}
    (h : Turn.newColumnId? ⟨call, world⟩ = some id) :
    id = world.store.lastColumnId + 1 ∧ id = (world.answer call).2.store.lastColumnId := by
  unfold Turn.newColumnId? at h
  split at h
  · next table column _ hturn =>
    cases hturn
    rcases world.answer_write_cases (.insertColumn table column) with
      ⟨_, _, _, hw, hanswer⟩ | ⟨_, _, hanswer⟩
    · obtain ⟨_, rfl, rfl⟩ := ShadowStore.of_insertColumn_eq_ok hw
      rw [hanswer] at h ⊢
      cases h
      exact ⟨rfl, rfl⟩
    · rw [hanswer] at h
      cases h
  · cases h

/-! ## A run -/

/-- The books are kept from one turn to the next. -/
theorem wellKeyed_tracked_after {calls : List Call}
    (hkeeps : ∀ turn ∈ world.turns calls, turn.KeepsTable)
    (h : world.store.WellKeyed ∧ world.store.Tracked) :
    ((world.after calls).store.WellKeyed ∧ (world.after calls).store.Tracked) ∧
      ∀ turn ∈ world.turns calls, turn.before.store.WellKeyed ∧ turn.before.store.Tracked := by
  induction calls generalizing world with
  | nil => exact ⟨h, fun _ hturn => absurd hturn List.not_mem_nil⟩
  | cons call calls ih =>
    rw [turns, List.forall_mem_cons] at hkeeps
    have hlater : (world.answer call).2.store.WellKeyed ∧ (world.answer call).2.store.Tracked := by
      refine answer_preserves (p := fun store => store.WellKeyed ∧ store.Tracked) ?_ h
      intro w reply later hcall hw
      exact ⟨h.1.write hw, h.2.write (hkeeps.1 w hcall) hw⟩
    obtain ⟨hafter, hturns⟩ := ih hkeeps.2 hlater
    rw [turns, List.forall_mem_cons]
    exact ⟨hafter, h, hturns⟩

theorem call_of_mem_turns {calls : List Call} {turn : Turn World} (h : turn ∈ world.turns calls) :
    turn.call ∈ calls := by
  induction calls generalizing world with
  | nil => cases h
  | cons call calls ih =>
    rcases List.mem_cons.1 h with rfl | h
    · exact List.mem_cons_self
    · exact List.mem_cons_of_mem _ (ih h)

/-- A shadow catalog that starts out empty keeps its books, whatever it is asked: new ids
    ascend, its rows fit together at any time, and what each call does is booked. -/
theorem keeps_books (world : World) (calls : List Call) (hempty : world.store = {})
    (hcalls : ∀ call ∈ calls, call.ToStore) (hkeeps : ∀ turn ∈ world.turns calls, turn.KeepsTable) :
    ((world.turns calls).filterMap Turn.newTableId?).Pairwise (· < ·) ∧
      ((world.turns calls).filterMap Turn.newColumnId?).Pairwise (· < ·) ∧
      (world.after calls).store.Kept ∧
      ∀ turn ∈ world.turns calls, turn.before.store.Kept ∧ turn.Booked := by
  have hstart : world.store.WellKeyed ∧ world.store.Tracked := hempty ▸ ⟨.empty, .empty⟩
  obtain ⟨hafter, hturns⟩ := wellKeyed_tracked_after hkeeps hstart
  refine ⟨?_, ?_, hafter.1.kept hafter.2, fun turn hturn => ⟨?_, ?_⟩⟩
  · refine (pairwise_newIds (·.store.lastTableId)
      (fun world call => (world.counters_of_answer call).1) ?_ world calls).2
    intro call world id hid
    obtain ⟨hnext, hlast⟩ := of_newTableId?_eq_some hid
    exact ⟨hnext ▸ Int.lt_succ _, Int.le_of_eq hlast⟩
  · refine (pairwise_newIds (·.store.lastColumnId)
      (fun world call => (world.counters_of_answer call).2) ?_ world calls).2
    intro call world id hid
    obtain ⟨hnext, hlast⟩ := of_newColumnId?_eq_some hid
    exact ⟨hnext ▸ Int.lt_succ _, Int.le_of_eq hlast⟩
  · exact (hturns turn hturn).1.kept (hturns turn hturn).2
  · exact booked_of_toStore (hcalls _ (call_of_mem_turns hturn)) turn.before

/-- Two tables of one name, of which the first is deleted with its column, and another one.
    Three changes lack their row, and one removes a row that is not there. -/
def bookkeeping : List Call := [
  .write (.insertTable "books" 10),
  .write (.insertTable "books" 20),
  .write (.insertColumn 1 ⟨1, "id", "int", false, none, true, none⟩),
  .trackedTable "books",
  .write (.insertColumn 9 ⟨1, "id", "int", false, none, true, none⟩),
  .write (.deleteTable 1),
  .write (.renameTable 1 "authors"),
  .trackedTable "books",
  .write (.insertTable "authors" 30),
  .write (.insertColumn 2 ⟨1, "id", "int", false, none, true, none⟩),
  .write (.updateColumn ⟨2, 2, 1, "key", "int"⟩),
  .write (.updateColumn ⟨1, 1, 1, "key", "int"⟩),
  .write (.deleteColumn 1),
  .trackedColumns 2]

/-- The ids of what was deleted are not given again. -/
theorem keeps_books_bookkeeping :
    ((∀ call ∈ bookkeeping, call.ToStore) ∧ ∀ turn ∈ turns {} bookkeeping, turn.KeepsTable) ∧
      ((turns {} bookkeeping).filterMap Turn.newTableId? = [1, 2, 3] ∧
        (turns {} bookkeeping).filterMap Turn.newColumnId? = [1, 2]) ∧
      (((turns {} bookkeeping).filterMap Turn.newTableId?).Pairwise (· < ·) ∧
        ((turns {} bookkeeping).filterMap Turn.newColumnId?).Pairwise (· < ·) ∧
        (after {} bookkeeping).store.Kept ∧
        ∀ turn ∈ turns {} bookkeeping, turn.before.store.Kept ∧ turn.Booked) := by
  have hcalls : ∀ call ∈ bookkeeping, call.ToStore := by decide
  have hkeeps : ∀ turn ∈ turns {} bookkeeping, turn.KeepsTable := by decide
  exact ⟨⟨hcalls, hkeeps⟩, by decide, keeps_books {} bookkeeping rfl hcalls hkeeps⟩

end World

end ShadowCatalog
