import ShadowCatalog.Proofs.Catalog.Backing

/-!
# Columns listed in another order

The columns of a tracked table are listed in no particular order. Two responders
*relist* each other if they answer alike, apart from that order
(`Responder.Relists`).

A program is *indifferent* to the order if it goes on in the same way for each
order of the columns that it is given (`Program.Indifferent`). What becomes of the
columns is decided where they are listed, so that this is a matter of the single
calls: a sequence of indifferent tasks is indifferent, and so is a task that does
not list columns at all. An indifferent program asks the same calls of both
responders, in the same states, and comes to the same result
(`Program.Indifferent.run_eq`).

Some programs are indifferent only to the order of columns of a certain kind, such
as columns with ids of their own; `q` stands for what is known of the columns that
are listed.
-/

namespace ShadowCatalog

variable {α β σ : Type}

/-- Two replies that differ at most in the order of columns. -/
inductive Relisted : (call : Call) → Except Error call.Reply → Except Error call.Reply → Prop
  | same {call : Call} (reply : Except Error call.Reply) : Relisted call reply reply
  | columns {table : TableId} {rows rows' : List TrackedColumn} : rows.Perm rows' →
      Relisted (.trackedColumns table) (.ok rows) (.ok rows')

/-- Another responder answers alike, apart from the order in which it lists the columns
    of a table. -/
def Responder.Relists (responder other : Responder σ) : Prop :=
  ∀ call state, Relisted call (responder call state).1 (other call state).1 ∧
    (other call state).2 = (responder call state).2

/-- The columns in a reply, if it lists columns, have a property. -/
def Lists (q : List TrackedColumn → Prop) : (call : Call) → Except Error call.Reply → Prop
  | .trackedColumns _, .ok rows => q rows
  | _, _ => True

/-- What is made of a reply does not depend on the order of the columns in it. -/
def Blind (q : List TrackedColumn → Prop) : (call : Call) → (Except Error call.Reply → α) → Prop
  | .trackedColumns _, next =>
    ∀ rows rows', q rows → rows.Perm rows' → next (.ok rows') = next (.ok rows)
  | _, _ => True

variable {q : List TrackedColumn → Prop} {responder other : Responder σ}

/-- Where no columns are listed, replies are the same. -/
theorem Relisted.eq_of_ne {call : Call} {reply reply' : Except Error call.Reply}
    (h : Relisted call reply reply') (hcall : ∀ table, call ≠ .trackedColumns table) :
    reply' = reply := by
  cases h with
  | same => rfl
  | columns => exact absurd rfl (hcall _)

theorem Blind.eq {call : Call} {next : Except Error call.Reply → α}
    {reply reply' : Except Error call.Reply} (h : Blind q call next) (hlists : Lists q call reply)
    (hreplies : Relisted call reply reply') : next reply' = next reply := by
  cases hreplies with
  | same => rfl
  | columns hperm => exact h _ _ hlists hperm

theorem Blind.comp {call : Call} {next : Except Error call.Reply → α} (h : Blind q call next)
    (f : α → β) : Blind q call fun reply => f (next reply) := by
  cases call with
  | trackedColumns table => exact fun rows rows' hq hperm => congrArg f (h rows rows' hq hperm)
  | _ => exact trivial

theorem blind_of_ne {call : Call} (h : ∀ table, call ≠ .trackedColumns table)
    (next : Except Error call.Reply → α) : Blind q call next := by
  cases call with
  | trackedColumns table => exact absurd rfl (h table)
  | _ => exact trivial

/-- A call makes the same change, whoever answers. -/
theorem Responder.Relists.change?_eq (h : responder.Relists other) (turn : Turn σ) :
    turn.change? other = turn.change? responder := by
  obtain ⟨call, before⟩ := turn
  cases call with
  | write w =>
    have hsame := (h (.write w) before).1.eq_of_ne nofun
    simp only [Turn.change?, Turn.reply, hsame]
  | _ => rfl

/-- What is known of the columns of each table is known of the columns that are listed. -/
theorem Backing.lists (b : Backing responder) {state : σ}
    (h : ∀ table, q ((b.store state).columnsOf table)) (call : Call) :
    Lists q call (responder call state).1 := by
  cases call with
  | trackedColumns table =>
    rcases b.answered (.trackedColumns table) state with hanswer | ⟨⟨error, herror⟩, _⟩
    · rw [(Prod.mk.inj hanswer).1]
      exact h table
    · rw [herror]
      exact trivial
  | _ => exact trivial

/-! ## Programs -/

namespace Program

/-- A program goes on in the same way for each order of the columns that it is given. -/
def Indifferent (q : List TrackedColumn → Prop) : Program α → Prop
  | .done _ => True
  | .ask call next => Blind q call next ∧ ∀ reply, (next reply).Indifferent q

namespace Indifferent

theorem bind {program : Program α} {f : α → Program β} (h : program.Indifferent q)
    (hf : ∀ a, (f a).Indifferent q) : (program.bind f).Indifferent q := by
  induction program with
  | done result => exact hf result
  | ask call next ih => exact ⟨h.1.comp (·.bind f), fun reply => ih reply (h.2 reply)⟩

/-- Where no columns are listed, there is no order of them. -/
theorem of_asks {program : Program α}
    (h : program.Asks fun call => ∀ table, call ≠ .trackedColumns table) :
    program.Indifferent q := by
  induction program with
  | done result => exact trivial
  | ask call next ih => exact ⟨blind_of_ne h.1 next, fun reply => ih reply (h.2 reply)⟩

/-- The run of an indifferent program is the same, in whichever order columns are listed. -/
theorem run_eq {program : Program α} {state : σ} (h : program.Indifferent q)
    (hother : responder.Relists other)
    (hlists : program.Throughout responder
      (fun s => ∀ call, Lists q call (responder call s).1) state) :
    program.run other state = program.run responder state ∧
      program.course other state = program.course responder state := by
  induction program generalizing state with
  | done result => exact ⟨rfl, rfl⟩
  | ask call next ih =>
    obtain ⟨hreplies, hstate⟩ := hother call state
    have hnext := h.1.eq (hlists.first call) hreplies
    obtain ⟨hrun, hcourse⟩ := ih _ (h.2 _) hlists.2
    refine ⟨Eq.trans ?_ hrun, Eq.trans ?_ (congrArg (⟨call, state⟩ :: ·) hcourse)⟩
    · change (next (other call state).1).run other (other call state).2 = _
      rw [hnext, hstate]
    · change ⟨call, state⟩ :: (next (other call state).1).course other (other call state).2 = _
      rw [hnext, hstate]

end Indifferent

end Program

/-! ## Tasks -/

namespace CatalogTask

/-- A task runs alike, whichever of two responders answers: it asks the same calls in the
    same states, makes the same changes, and comes to the same outcome and last state. -/
structure RunsAlike (responder other : Responder σ) (task : CatalogTask α) (state : σ) : Prop where
  perform : task.perform other state = task.perform responder state
  course : task.course other state = task.course responder state
  changes : task.changes other state = task.changes responder state

/-- A task that does not depend on the order in which columns are listed. -/
def Indifferent (q : List TrackedColumn → Prop) (task : CatalogTask α) : Prop :=
  Program.Indifferent q task.run

namespace Indifferent

theorem of_asks {task : CatalogTask α}
    (h : Asks (fun call => ∀ table, call ≠ .trackedColumns table) task) : Indifferent q task :=
  Program.Indifferent.of_asks h

theorem pure (a : α) : Indifferent q (Pure.pure a) := trivial

theorem of_throw (error : Error) : Indifferent q (throw error : CatalogTask α) := trivial

theorem bind {task : CatalogTask α} {f : α → CatalogTask β} (h : Indifferent q task)
    (hf : ∀ a, Indifferent q (f a)) : Indifferent q (task >>= f) := by
  refine Program.Indifferent.bind h ?_
  intro outcome
  cases outcome with
  | error error => exact trivial
  | ok a => exact hf a

/-- Columns are listed, and what is done then does not depend on their order. -/
theorem ask_columns {table : TableId} {f : List TrackedColumn → CatalogTask β}
    (h : ∀ rows rows', q rows → rows.Perm rows' → f rows' = f rows)
    (hf : ∀ rows, Indifferent q (f rows)) :
    Indifferent q (ask (.trackedColumns table) >>= f) := by
  refine ⟨fun rows rows' hq hperm => congrArg ExceptT.run (h rows rows' hq hperm), ?_⟩
  intro reply
  cases reply with
  | error error => exact trivial
  | ok rows => exact hf rows

/-- An indifferent task runs alike, in whichever order columns are listed, if throughout its
    run the columns of each table are of the kind that is asked of them. -/
theorem runsAlike (b : Backing responder) {task : CatalogTask α} {state : σ}
    (h : Indifferent q task) (hother : responder.Relists other)
    (hcolumns : Program.Throughout responder (fun s => ∀ table, q ((b.store s).columnsOf table))
      task.run state) :
    task.RunsAlike responder other state := by
  obtain ⟨hrun, hcourse⟩ := Program.Indifferent.run_eq h hother (hcolumns.imp fun _ => b.lists)
  refine ⟨hrun, hcourse, ?_⟩
  have hchange : (fun turn : Turn σ => turn.change? other) = (·.change? responder) :=
    funext hother.change?_eq
  rw [changes, changes, course, hcourse, hchange]
  rfl

end Indifferent

end CatalogTask

namespace SyncTask

/-- A stretch that does not depend on the order in which columns are listed. -/
def Indifferent (q : List TrackedColumn → Prop) (task : SyncTask α) : Prop :=
  ∀ report, Program.Indifferent q (task.run report)

namespace Indifferent

theorem of_asks {task : SyncTask α}
    (h : Asks (fun call => ∀ table, call ≠ .trackedColumns table) task) : Indifferent q task :=
  fun report => Program.Indifferent.of_asks (h report)

theorem pure (a : α) : Indifferent q (Pure.pure a) := fun _ => trivial

theorem bind {task : SyncTask α} {f : α → SyncTask β} (h : Indifferent q task)
    (hf : ∀ a, Indifferent q (f a)) : Indifferent q (task >>= f) := by
  refine fun report => Program.Indifferent.bind (h report) ?_
  intro outcome
  rcases outcome with ⟨_ | a, report⟩
  · exact trivial
  · exact hf a report

theorem tryCatch {task : SyncTask α} {handler : Error → SyncTask α} (h : Indifferent q task)
    (hhandler : ∀ error, Indifferent q (handler error)) :
    Indifferent q (MonadExcept.tryCatch task handler) := by
  intro report
  rw [run_tryCatch]
  refine Program.Indifferent.bind (h report) ?_
  intro outcome
  rcases outcome with ⟨error | _, report⟩
  · exact hhandler error report
  · exact trivial

/-- Columns are listed, and what is done then does not depend on their order. -/
theorem ask_columns {table : TableId} {f : List TrackedColumn → SyncTask β}
    (h : ∀ rows rows', q rows → rows.Perm rows' → f rows' = f rows)
    (hf : ∀ rows, Indifferent q (f rows)) :
    Indifferent q (SyncTask.ask (.trackedColumns table) >>= f) := by
  refine fun report => ⟨fun rows rows' hq hperm => ?_, fun reply => ?_⟩
  · exact congrArg (fun task => task.run report) (h rows rows' hq hperm)
  · cases reply with
    | error error => exact trivial
    | ok rows => exact hf rows report

end Indifferent

end SyncTask

end ShadowCatalog
