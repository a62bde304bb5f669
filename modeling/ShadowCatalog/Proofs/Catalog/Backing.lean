import ShadowCatalog.Proofs.Memory.ShadowStore
import ShadowCatalog.Proofs.Catalog.Course

/-!
# What stands behind a responder

A responder is *backed* by catalogs if in each of its states there are a live
catalog (`LiveView`) and a shadow store, and each call is answered from them,
unless it fails; a call that fails changes nothing (`Backing`). Nothing is said
of when calls fail: any call may, at any time, with any error, so that what is
shown of backed responders holds for every schedule of failures. Nor is it said
that the live catalog stays the same during a run: that is `Steady`.

The responder without failures is `LiveView.respond`. It is backed by itself,
and no call is *struck* there, that is, made to fail although the catalogs have
an answer to it.
-/

namespace ShadowCatalog

/-- A live catalog as a reader finds it. -/
structure LiveView where
  tables : List LiveTable
  /-- The columns of the table of a name. -/
  columns : String → List LiveColumn
  foreignKeys : String → List ForeignKey

/-- What a database promises of its tables and columns: tables differ in their
    physical ids, and the columns of a table in their positions. -/
structure LiveView.Distinct (live : LiveView) : Prop where
  physicalIds : live.tables.Pairwise (·.physicalId ≠ ·.physicalId)
  positions : ∀ table, (live.columns table).Pairwise (·.position ≠ ·.position)

/-- Catalogs that answer every call they have an answer to. -/
def LiveView.respond (live : LiveView) : Responder ShadowStore
  | .liveTables, store => (.ok live.tables, store)
  | .liveColumns table, store => (.ok (live.columns table), store)
  | .foreignKeys table, store => (.ok (live.foreignKeys table), store)
  | .trackedTables, store => (.ok store.tables, store)
  | .trackedTable name, store => (.ok (store.tableNamed? name), store)
  | .trackedColumns table, store => (.ok (store.columnsOf table), store)
  | .write w, store =>
    match store.write w with
    | .ok (reply, later) => (.ok reply, later)
    | .error cause => (.error (.catalog cause), store)

variable {α σ : Type} {responder : Responder σ}

/-- The catalogs behind a responder. -/
structure Backing (responder : Responder σ) where
  live : σ → LiveView
  store : σ → ShadowStore
  /-- A call is answered from the catalogs, or it fails and changes nothing. -/
  answered : ∀ call state,
    ((responder call state).1, store (responder call state).2) =
        (live state).respond call (store state) ∨
      (∃ error, (responder call state).1 = .error error) ∧
        store (responder call state).2 = store state

/-- The catalogs behind catalogs that answer every call. -/
def LiveView.backing (live : LiveView) : Backing live.respond where
  live _ := live
  store := id
  answered _ _ := .inl rfl

namespace Backing

variable (b : Backing responder)

/-- The live catalog stays the same while calls are answered. -/
def Steady : Prop := ∀ call state, b.live (responder call state).2 = b.live state

/-- The call of a turn fails although the catalogs have an answer to it. -/
def Struck (turn : Turn σ) (error : Error) : Prop :=
  turn.reply responder = .error error ∧
    ∃ reply, ((b.live turn.before).respond turn.call (b.store turn.before)).1 = .ok reply

/-- A call to which the catalogs have an answer is given that answer, or struck. -/
theorem reply_or_struck {call : Call} {state : σ} {reply : call.Reply} {later : ShadowStore}
    (h : (b.live state).respond call (b.store state) = (.ok reply, later)) :
    (responder call state).1 = .ok reply ∧ b.store (responder call state).2 = later ∨
      ∃ error, b.Struck ⟨call, state⟩ error ∧ b.store (responder call state).2 = b.store state := by
  -- A call that failed was struck, as the catalogs had an answer to it.
  rcases b.answered call state with hanswer | ⟨⟨error, herror⟩, hstore⟩
  · rw [h, Prod.mk.injEq] at hanswer
    exact .inl hanswer
  · exact .inr ⟨error, ⟨herror, reply, congrArg Prod.fst h⟩, hstore⟩

/-- A call changes nothing, or it makes the change that it asks for. -/
theorem change?_cases (call : Call) (state : σ) :
    (Turn.change? responder ⟨call, state⟩ = none ∧
      b.store (responder call state).2 = b.store state) ∨
    ∃ w, call = .write w ∧ Turn.change? responder ⟨call, state⟩ = some w ∧
      (b.store state).Accepts w ∧ b.store (responder call state).2 = (b.store state).apply w := by
  rcases b.answered call state with hanswer | ⟨⟨error, herror⟩, hstore⟩
  · obtain ⟨hreply, hstore⟩ := Prod.mk.inj hanswer
    cases call with
    | write w =>
      cases hw : (b.store state).write w with
      | ok answer =>
        simp only [hw] at hreply hstore
        refine .inr ⟨w, rfl, ?_, ⟨_, _, hw⟩, hstore.trans (ShadowStore.apply_of_write hw).symm⟩
        simp only [Turn.change?, Turn.reply, hreply]
      | error cause =>
        simp only [hw] at hreply hstore
        exact .inl ⟨Turn.change?_eq_none responder hreply, hstore⟩
    | _ => exact .inl ⟨rfl, hstore⟩
  · exact .inl ⟨Turn.change?_eq_none responder herror, hstore⟩

/-- A call leaves the store as it is, or as the change that it asks for makes it. -/
theorem store_cases (call : Call) (state : σ) :
    b.store (responder call state).2 = b.store state ∨
      ∃ w, call = .write w ∧ b.store (responder call state).2 = (b.store state).apply w := by
  rcases b.change?_cases call state with ⟨_, hstore⟩ | ⟨w, hcall, _, _, hstore⟩
  · exact .inl hstore
  · exact .inr ⟨w, hcall, hstore⟩

/-- The changes that were made in a run are all that happened to the store. -/
theorem applyAll_changes (program : Program α) (state : σ) :
    let made := (program.course responder state).filterMap (·.change? responder)
    (b.store state).AcceptsAll made ∧
      b.store (program.run responder state).2 = (b.store state).applyAll made := by
  induction program generalizing state with
  | done result => exact ⟨trivial, rfl⟩
  | ask call next ih =>
    obtain ⟨haccepts, hstore⟩ := ih (responder call state).1 (responder call state).2
    rw [Program.course]
    rcases b.change?_cases call state with ⟨hnone, hsame⟩ | ⟨w, _, hsome, hw, hlater⟩
    · rw [List.filterMap_cons_none hnone]
      rw [hsame] at haccepts hstore
      exact ⟨haccepts, hstore⟩
    · rw [List.filterMap_cons_some hsome]
      rw [hlater] at haccepts hstore
      exact ⟨⟨hw, haccepts⟩, hstore⟩

/-- Between any two calls of a run, the store is as the first few of its changes have left
    it. -/
theorem throughout_applyAll (program : Program α) (state : σ) :
    program.Throughout responder (fun s => ∃ few,
      few <+: (program.course responder state).filterMap (·.change? responder) ∧
        b.store s = (b.store state).applyAll few) state := by
  induction program generalizing state with
  | done result => exact ⟨[], List.prefix_rfl, rfl⟩
  | ask call next ih =>
    refine ⟨⟨[], List.nil_prefix, rfl⟩, (ih _ _).imp ?_⟩
    rintro s ⟨few, hfew, hstore⟩
    rw [Program.course]
    rcases b.change?_cases call state with ⟨hnone, hsame⟩ | ⟨w, _, hsome, _, hlater⟩
    · rw [List.filterMap_cons_none hnone]
      exact ⟨few, hfew, hsame ▸ hstore⟩
    · rw [List.filterMap_cons_some hsome]
      refine ⟨w :: few, (List.prefix_cons_inj w).2 hfew, ?_⟩
      rw [hstore, hlater]
      rfl

/-- Whatever is done, rows stay in the order of their ids. -/
theorem throughout_wellKeyed (program : Program α) {state : σ} (h : (b.store state).WellKeyed) :
    program.Throughout responder (fun s => (b.store s).WellKeyed) state := by
  refine (b.throughout_applyAll program state).imp ?_
  rintro s ⟨few, -, hstore⟩
  rw [hstore]
  exact h.applyAll few

/-- What the changes that a program may ask for keep of the store holds throughout
    its run. -/
theorem throughout_of_asks {p : ShadowStore → Prop} {q : Call → Prop} {program : Program α}
    {state : σ} (hasks : program.Asks q)
    (hkeep : ∀ w, q (.write w) → ∀ store, p store → p (store.apply w))
    (h : p (b.store state)) : program.Throughout responder (fun s => p (b.store s)) state := by
  induction program generalizing state with
  | done result => exact h
  | ask call next ih =>
    refine ⟨h, ih _ (hasks.2 _) ?_⟩
    rcases b.store_cases call state with hstore | ⟨w, rfl, hstore⟩
    · rw [hstore]
      exact h
    · rw [hstore]
      exact hkeep w hasks.1 _ h

/-- A program that makes no changes leaves the store as it is. -/
theorem throughout_of_reads {program : Program α}
    (h : program.Asks fun call => ∀ w, call ≠ .write w) (state : σ) :
    program.Throughout responder (fun s => b.store s = b.store state) state :=
  b.throughout_of_asks (p := (· = b.store state)) h (fun w hw => absurd rfl (hw w)) rfl

end Backing

/-- Where every call is answered, none is struck. -/
theorem LiveView.not_struck (live : LiveView) (turn : Turn ShadowStore) (error : Error) :
    ¬live.backing.Struck turn error := by
  rintro ⟨herror, reply, hreply⟩
  exact absurd (herror.symm.trans hreply) (by simp)

/-- Throughout a run the live catalog stays as it is, if each call leaves it so. -/
theorem Backing.Steady.throughout {b : Backing responder} (hsteady : b.Steady)
    (program : Program α) (state : σ) :
    program.Throughout responder (fun s => b.live s = b.live state) state := by
  induction program generalizing state with
  | done result => rfl
  | ask call next ih => exact ⟨rfl, (ih _ _).imp fun s h => h.trans (hsteady call state)⟩

theorem Backing.Steady.run {b : Backing responder} (hsteady : b.Steady) (program : Program α)
    (state : σ) : b.live (program.run responder state).2 = b.live state :=
  (hsteady.throughout program state).last

/-! ## Runs in which no call fails -/

/-- No call of a course failed. -/
def Unfailing (responder : Responder σ) (course : List (Turn σ)) : Prop :=
  ∀ turn ∈ course, ∃ reply, turn.reply responder = .ok reply

/-- Whether a call failed can be computed. -/
theorem unfailing_of_all {course : List (Turn σ)}
    (h : course.all (fun turn => (turn.reply responder).isOk) = true) :
    Unfailing responder course := by
  intro turn hturn
  have hok := List.all_eq_true.1 h turn hturn
  cases hreply : turn.reply responder with
  | ok reply => exact ⟨reply, rfl⟩
  | error error =>
    rw [hreply] at hok
    cases hok

/-- A run in which no call fails, while the live catalog stays the same, is the run
    against the catalogs themselves. -/
theorem Backing.run_of_unfailing (b : Backing responder) (hsteady : b.Steady)
    (program : Program α) {state : σ} (h : Unfailing responder (program.course responder state)) :
    program.run (b.live state).respond (b.store state) =
        ((program.run responder state).1, b.store (program.run responder state).2) ∧
      (program.course (b.live state).respond (b.store state)).map (·.call) =
        (program.course responder state).map (·.call) := by
  induction program generalizing state with
  | done result => exact ⟨rfl, rfl⟩
  | ask call next ih =>
    rw [Program.course, Unfailing, List.forall_mem_cons] at h
    obtain ⟨⟨reply, hreply⟩, hrest⟩ := h
    -- As the call did not fail, it was answered from the catalogs, which are then the
    -- same as after the answer.
    have hanswer : (b.live state).respond call (b.store state) =
        ((responder call state).1, b.store (responder call state).2) := by
      rcases b.answered call state with hanswer | ⟨⟨error, herror⟩, _⟩
      · exact hanswer.symm
      · exact absurd (hreply.symm.trans herror) (by simp)
    have hlater := ih _ hrest
    rw [hsteady] at hlater
    refine ⟨?_, ?_⟩
    · rw [Program.run, hanswer]
      exact hlater.1
    · rw [Program.course, Program.course, hanswer, List.map_cons, List.map_cons]
      exact congrArg _ hlater.2

end ShadowCatalog
