import ShadowCatalog.Catalog.Layout
import ShadowCatalog.Proofs.Memory.World
import ShadowCatalog.Proofs.Reconcile.Soundness

/-!
# Histories of a shadow catalog

A history begins with nothing tracked. In it the live catalog changes in any way,
passes are run, and the presentation is edited by hand, with whatever arguments. A
call may fail at any time, so that a pass may be cut short or leave tables out, and
a pass or an edit need not come to its end. The *moments* of a history are the
states between any two calls (`Backing.Moment`).

At every moment the shadow catalog is coherent (`Backing.Moment.coherent`), as every
part of a history keeps it sound:

* a pass does, by its plans (`throughout_syncPass_sound`);
* an edit asks only for changes that any store admits (`asks_reorder`,
  `asks_chooseLabel`): a label may be any, and an order that does not list each column
  once is not accepted.
-/

namespace ShadowCatalog

variable {α σ : Type} {responder : Responder σ} {state : σ}

/-! ## Edits of the presentation -/

/-- If the call asks for a change, any store admits it. -/
def Call.Harmless (call : Call) : Prop :=
  ∀ w, call = .write w → ∀ store : ShadowStore, store.Admits w

/-- A program that asks only harmless calls keeps the catalog sound. -/
theorem Backing.throughout_sound (b : Backing responder) {program : Program α}
    (hasks : program.Asks Call.Harmless) (h : (b.store state).Sound) :
    program.Throughout responder (fun s => (b.store s).Sound) state :=
  b.throughout_of_asks hasks (fun w hw store hsound => hsound.apply (hw w rfl store)) h

theorem asks_trackedTable {p : Call → Prop} {name : String} (h : p (.trackedTable name)) :
    (trackedTable name).Asks p := by
  refine .bind (.ask h) ?_
  intro found
  cases found with
  | some table => exact .pure table
  | none => exact .of_throw _

/-- A tracked table is looked up, unless the call for it fails. Nothing is changed. -/
theorem trackedTable_cases (b : Backing responder) (name : String)
    (state : σ) :
    let run := (trackedTable name).perform responder state
    let failure? := Turn.failure? responder ((trackedTable name).course responder state)
    b.store run.2 = b.store state ∧
      ((∃ call error, failure? = some (call, error) ∧ run.1 = .error error) ∨
        failure? = none ∧ run.1 = match (b.store state).tableNamed? name with
          | none => .error (.validation (.unknownTable name))
          | some row => .ok row) := by
  have hanswer : (b.live state).respond (.trackedTable name) (b.store state) =
    (.ok ((b.store state).tableNamed? name), b.store state) := rfl
  have hcases := b.reply_or_struck hanswer
  rw [trackedTable, CatalogTask.course_bind, CatalogTask.perform_bind, CatalogTask.perform_ask,
    Turn.failure?_append, CatalogTask.failure?_ask, Turn.error?, Turn.reply]
  rcases hcall : responder (.trackedTable name) state with ⟨reply, later⟩
  rw [hcall] at hcases
  rcases hcases with ⟨rfl, hstore⟩ | ⟨error, ⟨herror, -⟩, hstore⟩
  · dsimp only at hstore ⊢
    cases (b.store state).tableNamed? name with
    | none => exact ⟨hstore, .inr ⟨rfl, rfl⟩⟩
    | some row => exact ⟨hstore, .inr ⟨rfl, rfl⟩⟩
  · rw [Turn.reply, hcall] at herror
    subst herror
    exact ⟨hstore, .inl ⟨_, _, rfl, rfl⟩⟩

theorem asks_reorder (name : String) (order : List ColumnId) :
    (reorder name order).Asks Call.Harmless := by
  refine .bind (asks_trackedTable fun _ hw => by cases hw) ?_
  intro table
  cases hvalid : DisplayOrder.validate name table.columnIds order with
  | error cause => exact .of_throw _
  | ok =>
    refine .ask ?_
    intro w hw store
    cases hw
    exact DisplayOrder.perm_of_validate hvalid

/-- To choose a label is to read, and to set the label. -/
theorem asks_chooseLabel (name : String) (column : Option String) :
    (chooseLabel name column).Asks fun call =>
      ∀ w, call = .write w → ∃ table, w = .setLabelColumn table column := by
  refine .bind (asks_trackedTable fun _ hw => by cases hw) ?_
  intro table
  have hwrite : (ask (.write (.setLabelColumn table.tableId column))).Asks fun call =>
      ∀ w, call = .write w → ∃ table, w = .setLabelColumn table column := by
    refine .ask ?_
    intro w hw
    cases hw
    exact ⟨_, rfl⟩
  cases column with
  | none => exact hwrite
  | some chosen =>
    refine .bind (.ask fun _ hw => by cases hw) ?_
    intro columns
    split
    · exact .bind (.of_throw _) fun _ => hwrite
    · exact hwrite

/-! ## Histories -/

/-- The states between the calls of a history. -/
inductive Backing.Moment (b : Backing responder) : σ → Prop
  /-- Nothing is tracked. -/
  | start {state : σ} : b.store state = {} → Moment b state
  /-- The live catalog changes, or what makes calls fail does. -/
  | outside {state later : σ} : Moment b state → b.store later = b.store state → Moment b later
  /-- A pass is run. The live catalog may change meanwhile, while its tables and
      columns differ. -/
  | pass {state later : σ} {policy : OrderPolicy} :
      Moment b state → policy.ListsEach →
      (∀ s ∈ (syncPass policy).states responder state, (b.live s).Distinct) →
      later ∈ (syncPass policy).states responder state → Moment b later
  /-- The columns of a table are put in another order. -/
  | reorder {state later : σ} (name : String) (order : List ColumnId) :
      Moment b state → later ∈ (reorder name order).states responder state → Moment b later
  /-- The label column of a table is chosen. -/
  | chooseLabel {state later : σ} (name : String) (column : Option String) :
      Moment b state → later ∈ (chooseLabel name column).states responder state → Moment b later

namespace Backing.Moment

variable {b : Backing responder}

theorem sound (h : b.Moment state) : (b.store state).Sound := by
  induction h with
  | start hempty => exact hempty ▸ .empty
  | outside _ hsame ih => exact hsame ▸ ih
  | pass _ hpolicy hlive hlater ih => exact throughout_syncPass_sound hpolicy ih hlive _ hlater
  | reorder name order _ hlater ih =>
    exact CatalogTask.forall_mem_states.2 (b.throughout_sound (asks_reorder name order) ih) _ hlater
  | chooseLabel name column _ hlater ih =>
    refine CatalogTask.forall_mem_states.2 (b.throughout_of_asks (asks_chooseLabel name column)
      ?_ ih) _ hlater
    intro w hw store hsound
    obtain ⟨table, rfl⟩ := hw w rfl
    exact hsound.apply trivial

/-- At every moment of a history the shadow catalog is coherent: tables differ in
    their physical ids, each column is one of a tracked table, the columns of a table
    differ in their positions, and each table lists each of its columns once. -/
theorem coherent (h : b.Moment state) : (b.store state).Coherent := h.sound.toCoherent

end Backing.Moment

/-! ## A history in memory -/

namespace World

variable {world : World}

/-- A pass over catalogs in memory leads from one moment to another. -/
theorem moment_syncPass (h : backing.Moment world) (hlive : world.view.Distinct) :
    backing.Moment ((syncPass DisplayOrder.merge).perform respond world).2 := by
  refine .pass h DisplayOrder.merge_listsEach ?_ (CatalogTask.perform_mem_states _ _ _)
  refine CatalogTask.forall_mem_states.2 ((steady.throughout _ world).imp fun s hs => ?_)
  rw [hs]
  exact hlive

/-- Two live tables, and nothing that is tracked. -/
def founded : World where
  live.entries := [
    ⟨⟨1, "a"⟩, [⟨1, "id", "int", false, none, true, none⟩,
      ⟨2, "name", "text", true, none, false, none⟩]⟩,
    ⟨⟨2, "b"⟩, [⟨1, "id", "int", false, none, true, none⟩]⟩]

/-- The table `b` was dropped, `a` took its name and lost a column, and another `a`
    was made. When that one is to be tracked, the call will fail. -/
def troubled (store : ShadowStore) : World where
  live.entries := [
    ⟨⟨1, "b"⟩, [⟨2, "title", "text", true, none, false, none⟩]⟩,
    ⟨⟨3, "a"⟩, [⟨1, "id", "int", false, none, true, none⟩]⟩]
  store
  faults := [⟨.insertTable, 0, 1, .catalog (.cancelled "insert")⟩]

theorem coherent_troubled :
    ∃ first second third final,
      ((syncPass DisplayOrder.merge).perform respond founded).2 = first ∧
      first.store.columns.map (·.tableId) = [1, 1, 2] ∧
      (reorder "a" [2, 1]).perform respond first = (.ok (), second) ∧
      (chooseLabel "a" (some "name")).perform respond second = (.ok (), third) ∧
      (syncPass DisplayOrder.merge).perform respond (troubled third.store) =
        (.error (.catalog (.cancelled "insert")), final) ∧
      final.store.tables.map (·.displayOrder) = [[2, 1]] ∧
      final.store.Coherent := by
  obtain ⟨first, hfirst⟩ :
    ∃ first, ((syncPass DisplayOrder.merge).perform respond founded).2 = first := ⟨_, rfl⟩
  obtain ⟨second, hsecond⟩ :
    ∃ second, ((reorder "a" [2, 1]).perform respond first).2 = second := ⟨_, rfl⟩
  obtain ⟨third, hthird⟩ :
    ∃ third, ((chooseLabel "a" (some "name")).perform respond second).2 = third := ⟨_, rfl⟩
  obtain ⟨final, hfinal⟩ :
    ∃ final, ((syncPass DisplayOrder.merge).perform respond (troubled third.store)).2 = final :=
      ⟨_, rfl⟩
  have hmoment₁ : backing.Moment first :=
    hfirst ▸ moment_syncPass (.start rfl) (view_distinct (by decide) (by decide))
  have hmoment₂ : backing.Moment second := by
    rw [← hsecond]
    exact .reorder "a" [2, 1] hmoment₁ (CatalogTask.perform_mem_states _ _ _)
  have hmoment₃ : backing.Moment third := by
    rw [← hthird]
    exact .chooseLabel "a" (some "name") hmoment₂ (CatalogTask.perform_mem_states _ _ _)
  have hdistinct : (troubled {}).view.Distinct := view_distinct (by decide) (by decide)
  have hmoment : backing.Moment final :=
    hfinal ▸ moment_syncPass (.outside hmoment₃ rfl) hdistinct
  refine ⟨first, second, third, final, hfirst, ?_, Prod.ext ?_ hsecond, Prod.ext ?_ hthird,
    Prod.ext ?_ hfinal, ?_, hmoment.coherent⟩
  · rw [← hfirst]
    cbv
  · rw [← hfirst]
    cbv
  · rw [← hsecond, ← hfirst]
    cbv
  · rw [← hthird, ← hsecond, ← hfirst]
    cbv
  · rw [← hfinal, ← hthird, ← hsecond, ← hfirst]
    cbv

end World

end ShadowCatalog
