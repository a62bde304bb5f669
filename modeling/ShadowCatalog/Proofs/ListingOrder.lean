import Mathlib.Data.List.Nodup
import ShadowCatalog.Proofs.Browse.Planner
import ShadowCatalog.Proofs.Catalog.Relisting
import ShadowCatalog.Proofs.History
import ShadowCatalog.Proofs.Memory.World

/-!
# The order in which columns are listed

A store may list the columns of a table in any order. Nothing that is done depends on it
(`listing_order_indifferent`):

* in a pass, the rows of a table are sorted by position and id, and as ids differ there is
  only one way to sort them (`Columns.steps_of_perm`);
* columns are shown in an order of their ids, which are those of a set, and each id finds
  one column (`takeColumns_of_perm`);
* a column can be chosen to label rows if one of its name is there, whichever that is;
* a label is found by the name of a column. This is where names must differ: of two columns
  of one name the one that is listed first is found (`labelColumn?_of_perm`).
-/

namespace ShadowCatalog

/-! ## What is made of columns -/

section

variable {columns columns' : List TrackedColumn}

/-- Where keys differ, the element of a key does not depend on the order. -/
theorem find?_key_of_perm {α κ : Type} [DecidableEq κ] (key : α → κ) {list list' : List α}
    (hkeys : list.Pairwise (key · ≠ key ·)) (h : list.Perm list') (k : κ) :
    list'.find? (key · = k) = list.find? (key · = k) := by
  have hkeys' : list'.Pairwise (key · ≠ key ·) := h.pairwise hkeys fun hne => hne.symm
  refine Option.ext fun a => ?_
  rw [find?_key_eq_some_iff key hkeys', find?_key_eq_some_iff key hkeys, h.mem_iff]

theorem IdSet.ofList_of_perm {ids ids' : List ColumnId} (h : ids.Perm ids') :
    ofList ids' = ofList ids :=
  IdSet.ext fun id => by rw [mem_ofList, mem_ofList, h.mem_iff]

/-- Rows whose ids differ can be sorted in one way only. -/
theorem Columns.mergeSort_of_perm (hids : (columns.map (·.columnId)).Nodup)
    (h : columns.Perm columns') :
    columns'.mergeSort comesFirst = columns.mergeSort comesFirst := by
  have hsame := (List.mergeSort_perm columns' comesFirst).trans
    (h.symm.trans (List.mergeSort_perm columns comesFirst).symm)
  refine List.Perm.eq_of_pairwise (fun a b ha hb hab hba => ?_) (sorted_mergeSort columns')
    (sorted_mergeSort columns) hsame
  have heq := le_antisymm (comesFirst_iff.1 hab) (comesFirst_iff.1 hba)
  refine List.inj_on_of_nodup_map hids ?_ (List.mem_mergeSort.1 hb)
    (congrArg Prod.snd (toLex.injective heq))
  exact h.symm.subset (List.mem_mergeSort.1 ha)

theorem Columns.steps_of_perm (hids : (columns.map (·.columnId)).Nodup)
    (h : columns.Perm columns') (live : List LiveColumn) :
    steps columns' live = steps columns live := by
  rw [steps, steps, mergeSort_of_perm hids h]

theorem takeColumns_of_perm (hids : columns.Pairwise (·.columnId ≠ ·.columnId))
    (h : columns.Perm columns') (ids : List ColumnId) :
    takeColumns columns' ids = takeColumns columns ids := by
  induction ids generalizing columns columns' with
  | nil => rfl
  | cons id ids ih =>
    have hreverse : columns.reverse.Perm columns'.reverse :=
      (List.reverse_perm columns).trans (h.trans (List.reverse_perm columns').symm)
    have hfind := find?_key_of_perm TrackedColumn.columnId
      (List.pairwise_reverse.2 (hids.imp Ne.symm)) hreverse id
    rw [takeColumns, takeColumns, hfind]
    cases columns.reverse.find? (·.columnId = id) with
    | none => exact ih hids h
    | some column => exact congrArg (column :: ·) (ih (hids.filter _) (h.filter _))

/-- Where names differ, the column that labels rows does not depend on the order. -/
theorem labelColumn?_of_perm (hnames : columns.Pairwise (·.name ≠ ·.name))
    (h : columns.Perm columns') (chosen : Option String) :
    labelColumn? chosen columns' = labelColumn? chosen columns := by
  have hnamed : columnNamed? columns' = columnNamed? columns :=
    funext fun name => find?_key_of_perm TrackedColumn.name hnames h name
  rw [labelColumn?, labelColumn?, hnamed]

end

/-! ## Tasks that do not depend on the order -/

variable {q : List TrackedColumn → Prop}

theorem indifferent_trackedTable (name : String) : (trackedTable name).Indifferent q :=
  .of_asks (asks_trackedTable nofun)

theorem Columns.indifferent_reconcile (hq : ∀ rows, q rows → (rows.map (·.columnId)).Nodup)
    (policy : OrderPolicy) (table : TrackedTable) : (reconcile policy table).Indifferent q := by
  have hwrite {w : Write} : (SyncTask.write w).Indifferent q := .of_asks (.write nofun)
  have hlayout (columnIds : IdSet) : (saveLayout policy table columnIds).Indifferent q := by
    unfold saveLayout
    dsimp only
    split
    · exact hwrite
    · exact .pure _
  refine .bind (.of_asks (.ask nofun)) fun live => .ask_columns (fun rows rows' hrows h => ?_) ?_
  · rw [steps_of_perm (hq rows hrows) h]
  · exact fun rows => .bind (.of_asks (asks_perform (fun _ => nofun) (fun _ => nofun)
      (fun _ => nofun) _)) fun ids => hlayout _

theorem indifferent_reconcileEach (hq : ∀ rows, q rows → (rows.map (·.columnId)).Nodup)
    (policy : OrderPolicy) (tables : List TrackedTable) :
    (reconcileEach policy tables).Indifferent q := by
  induction tables with
  | nil => exact .pure _
  | cons table tables ih =>
    refine .bind (.tryCatch (Columns.indifferent_reconcile hq policy table) fun _ => ?_) fun _ => ih
    exact .of_asks (.of_modify _)

theorem indifferent_syncPass (hq : ∀ rows, q rows → (rows.map (·.columnId)).Nodup)
    (policy : OrderPolicy) : (syncPass policy).Indifferent q := by
  have hopening : opening.Indifferent q := by
    refine .of_asks fun report => (asks_opening report).imp ?_
    rintro call hcall table rfl
    cases hcall
  have hstretch : (passStretch policy).Indifferent q := by
    rw [passStretch_eq]
    exact hopening.bind (indifferent_reconcileEach hq policy)
  exact Program.Indifferent.bind (hstretch {}) fun _ => trivial

theorem indifferent_orderedColumns (hq : ∀ rows, q rows → (rows.map (·.columnId)).Nodup)
    (policy : OrderPolicy) (row : TrackedTable) : (orderedColumns policy row).Indifferent q := by
  refine .ask_columns (fun rows rows' hrows h => ?_) fun rows => .pure _
  have hids := List.pairwise_map.1 (hq rows hrows)
  rw [IdSet.ofList_of_perm (h.map (·.columnId)), takeColumns_of_perm hids h]

theorem indifferent_chooseLabel (name : String) (column : Option String) :
    (chooseLabel name column).Indifferent q := by
  refine .bind (indifferent_trackedTable name) fun table => ?_
  have hwrite : (ask (.write (.setLabelColumn table.tableId column))).Indifferent q :=
    .of_asks (.ask nofun)
  cases column with
  | none => exact hwrite
  | some chosen =>
    refine .ask_columns (fun rows rows' _ h => ?_) fun rows => ?_
    · rw [h.all_eq]
    · split
      · exact .bind (.of_throw _) fun _ => hwrite
      · exact hwrite

theorem indifferent_tableLabel (hq : ∀ rows, q rows → rows.Pairwise (·.name ≠ ·.name))
    (name : String) : (tableLabel name).Indifferent q := by
  refine .bind (.of_asks (.ask nofun)) fun found => ?_
  cases found with
  | none => exact .pure _
  | some table =>
    refine .ask_columns (fun rows rows' hrows h => ?_) fun rows => .pure _
    rw [labelColumn?_of_perm (hq rows hrows) h]

/-- What holds of tasks that ask nothing, of two tasks in sequence, and of looking up a label,
    holds of labelling foreign keys. -/
theorem labelForeignKeys_rec {p : ∀ {α : Type}, CatalogTask α → Prop}
    (hpure : ∀ {α : Type} (a : α), p (pure a))
    (hbind : ∀ {α β : Type} {task : CatalogTask α} {f : α → CatalogTask β},
      p task → (∀ a, p (f a)) → p (task >>= f))
    (hlabel : ∀ name, p (tableLabel name)) (known : List (String × Option Label))
    (keys : List ForeignKey) : p (labelForeignKeys known keys) := by
  induction keys generalizing known with
  | nil => exact hpure _
  | cons key keys ih =>
    rw [labelForeignKeys]
    cases known.find? (·.1 = key.referencedTable) with
    | none => exact hbind (hlabel _) fun label => hbind (ih _) fun others => hpure _
    | some entry => exact hbind (hpure _) fun label => hbind (ih _) fun others => hpure _

theorem indifferent_resolveForeignKeys (hq : ∀ rows, q rows → rows.Pairwise (·.name ≠ ·.name))
    (table : String) : (resolveForeignKeys table).Indifferent q :=
  .bind (.of_asks (.ask nofun)) fun keys =>
    labelForeignKeys_rec (p := CatalogTask.Indifferent q) .pure .bind
      (indifferent_tableLabel hq) [] keys

theorem indifferent_planBrowse (hids : ∀ rows, q rows → (rows.map (·.columnId)).Nodup)
    (hnames : ∀ rows, q rows → rows.Pairwise (·.name ≠ ·.name))
    (policy : OrderPolicy) (request : BrowseRequest) (pageSize : Int) :
    (planBrowse policy request pageSize).Indifferent q := by
  refine .bind (indifferent_trackedTable _) fun table =>
    .bind (indifferent_orderedColumns hids policy table) fun columns =>
      .bind (indifferent_resolveForeignKeys hnames _) fun keys => ?_
  split
  · exact .pure _
  · exact .of_throw _

/-! ## Tasks that only read -/

theorem asks_resolveForeignKeys (table : String) :
    (resolveForeignKeys table).Asks fun call => ∀ w, call ≠ .write w := by
  have hlabel (name : String) : (tableLabel name).Asks fun call => ∀ w, call ≠ .write w := by
    refine .bind (.ask nofun) fun found => ?_
    cases found with
    | none => exact .pure _
    | some table => exact .bind (.ask nofun) fun columns => .pure _
  exact .bind (.ask nofun) fun keys =>
    labelForeignKeys_rec (p := CatalogTask.Asks _) .pure .bind hlabel [] keys

theorem asks_planBrowse (policy : OrderPolicy) (request : BrowseRequest) (pageSize : Int) :
    (planBrowse policy request pageSize).Asks fun call => ∀ w, call ≠ .write w := by
  refine .bind (asks_trackedTable nofun) fun table =>
    .bind (.bind (.ask nofun) fun columns => .pure _) fun columns =>
      .bind (asks_resolveForeignKeys _) fun keys => ?_
  split
  · exact .pure _
  · exact .of_throw _

/-! ## Other listings -/

section

variable {σ : Type} {responder other : Responder σ} {state : σ}

/-- Whichever calls fail, nothing depends on the order in which columns are listed, neither a
    pass, nor the order in which columns are shown, nor the choice of a label. Where columns
    of a table differ in their names, the same is true of labels, and of a page that is
    planned. -/
theorem listing_order_indifferent (b : Backing responder) (hother : responder.Relists other)
    (hkeyed : (b.store state).WellKeyed) :
    (∀ policy, (syncPass policy).RunsAlike responder other state) ∧
    (∀ policy row, (orderedColumns policy row).RunsAlike responder other state) ∧
    (∀ name column, (chooseLabel name column).RunsAlike responder other state) ∧
    ((∀ table, ((b.store state).columnsOf table).Pairwise (·.name ≠ ·.name)) →
      (∀ chosen table rows, ((b.store state).columnsOf table).Perm rows →
        labelColumn? chosen rows = labelColumn? chosen ((b.store state).columnsOf table)) ∧
      (∀ table, (resolveForeignKeys table).RunsAlike responder other state) ∧
      ∀ policy request pageSize,
        (planBrowse policy request pageSize).RunsAlike responder other state) := by
  -- Ids differ throughout a run, whatever it changes.
  have hids {α : Type} (task : CatalogTask α) :
      Program.Throughout responder (fun s => ∀ table,
        (((b.store s).columnsOf table).map (·.columnId)).Nodup) task.run state :=
    (b.throughout_wellKeyed _ hkeyed).imp fun _ h => h.columnsOf_nodup
  refine ⟨fun policy => ?_, fun policy row => ?_, fun name column => ?_, fun hnames => ⟨?_, ?_, ?_⟩⟩
  · exact (indifferent_syncPass (fun _ => id) policy).runsAlike b hother (hids _)
  · exact (indifferent_orderedColumns (fun _ => id) policy row).runsAlike b hother (hids _)
  · exact (indifferent_chooseLabel (q := fun rows => (rows.map (·.columnId)).Nodup) name
      column).runsAlike b hother (hids _)
  · exact fun chosen table rows h => labelColumn?_of_perm (hnames table) h chosen
  · intro table
    refine (indifferent_resolveForeignKeys (fun _ => id) table).runsAlike b hother ?_
    exact (b.throughout_of_reads (asks_resolveForeignKeys table) state).imp fun _ h => h ▸ hnames
  · -- Names differ throughout a run that changes nothing.
    intro policy request pageSize
    refine (indifferent_planBrowse (q := fun rows => (rows.map (·.columnId)).Nodup ∧
      rows.Pairwise (·.name ≠ ·.name)) (fun _ => And.left) (fun _ => And.right) policy request
        pageSize).runsAlike b hother ?_
    refine (b.throughout_of_reads (asks_planBrowse policy request pageSize) state).imp ?_
    intro s h table
    rw [h]
    exact ⟨hkeyed.columnsOf_nodup table, hnames table⟩

/-- The responder that lists the columns of each table by position. -/
def Responder.byPosition (responder : Responder σ) : Responder σ
  | .trackedColumns table, state =>
    ((responder (.trackedColumns table) state).1.map (·.mergeSort (·.position ≤ ·.position)),
      (responder (.trackedColumns table) state).2)
  | call, state => responder call state

theorem Responder.relists_byPosition (responder : Responder σ) :
    responder.Relists responder.byPosition := by
  intro call state
  cases call with
  | trackedColumns table =>
    refine ⟨?_, rfl⟩
    rw [byPosition]
    cases (responder (.trackedColumns table) state).1 with
    | error error => exact .same _
    | ok rows => exact .columns (List.mergeSort_perm rows _).symm
  | _ => exact ⟨.same _, rfl⟩

end

/-- Items whose rows were made from the last column to the first, two of them at one
    position, and whose stored order lags behind. The removal of a column will fail once, but
    only after the first. -/
def overturned : World where
  live.entries := [⟨⟨1, "items"⟩, [⟨1, "id", "integer", false, none, true, none⟩,
    ⟨2, "title", "text", true, none, false, none⟩, ⟨4, "price", "money", true, none, false, none⟩]⟩]
  live.foreignKeys := [⟨"items", "parent_id", "items", "id", none⟩]
  store := ShadowStore.applyAll {} [
    .insertTable "items" 1,
    .insertColumn 1 ⟨3, "parent_id", "integer", true, none, false, none⟩,
    .insertColumn 1 ⟨2, "name", "text", true, none, false, none⟩,
    .insertColumn 1 ⟨1, "id", "integer", false, none, true, none⟩,
    .insertColumn 1 ⟨1, "email", "citext", true, none, false, none⟩,
    .saveLayout 1 (.ofList [1, 3, 9]) [3, 9, 1, 3]]
  faults := [⟨.deleteColumn, 1, 1, .catalog (.cancelled "removal")⟩]

theorem listing_order_indifferent_overturned :
    let reordered := World.respond.byPosition
    (World.respond (.trackedColumns 1) overturned).1.map (·.map (·.columnId)) =
        .ok [1, 2, 3, 4] ∧
      (reordered (.trackedColumns 1) overturned).1.map (·.map (·.columnId)) = .ok [3, 4, 2, 1] ∧
      (syncPass DisplayOrder.merge).RunsAlike World.respond reordered overturned ∧
      (chooseLabel "items" (some "email")).RunsAlike World.respond reordered overturned ∧
      (resolveForeignKeys "items").RunsAlike World.respond reordered overturned ∧
      (planBrowse DisplayOrder.merge { table := "items" } 50).RunsAlike World.respond reordered
        overturned := by
  intro reordered
  have hkeyed : (World.backing.store overturned).WellKeyed :=
    (ShadowStore.Reachable.empty.applyAll _).wellKeyed
  have hnames (table : TableId) :
      (overturned.store.columnsOf table).Pairwise (·.name ≠ ·.name) :=
    List.Pairwise.filter _ (by decide : overturned.store.columns.Pairwise (·.name ≠ ·.name))
  obtain ⟨hpass, -, hchoose, hlabels⟩ :=
    listing_order_indifferent World.backing World.respond.relists_byPosition hkeyed
  obtain ⟨-, hresolve, hplan⟩ := hlabels hnames
  exact ⟨by cbv, by cbv, hpass _, hchoose _ _, hresolve _, hplan _ _ _⟩

end ShadowCatalog
