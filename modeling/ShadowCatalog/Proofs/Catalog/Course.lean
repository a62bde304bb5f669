import ShadowCatalog.Reconcile.Report

/-!
# Courses

The *course* of a run is what it asked: its calls, in order, each with the state
in which it was asked (a `Turn`). A responder makes of each turn a reply and the
next state, so that the course says all that happened in a run, also in the
middle of it:

* `changes`: the changes that were made, those that failed left out;
* `states`: the states between the calls, with the first and the last.

The course of a sequence of two tasks is the course of the first, followed, if
that ended well, by the course of the second (`SyncTask.course_bind`).

What a program can ask at all, whatever the replies are, bounds the calls of each
of its courses (`Program.Asks`). What holds in each of the states of a run holds
*throughout* it (`Program.Throughout`); for a sequence that is a matter of its parts
(`Program.throughout_bind`).
-/

namespace ShadowCatalog

variable {α β σ : Type}

/-- A call, and the state in which it is asked. -/
structure Turn (σ : Type) where
  call : Call
  before : σ

namespace Turn

variable (responder : Responder σ)

/-- The reply to the call. -/
def reply (turn : Turn σ) : Except Error turn.call.Reply := (responder turn.call turn.before).1

/-- The state after the call. -/
def after (turn : Turn σ) : σ := (responder turn.call turn.before).2

/-- The change that the call made, if it is one and did not fail. -/
def change? (turn : Turn σ) : Option Write :=
  match turn.call, turn.reply responder with
  | .write w, .ok _ => some w
  | _, _ => none

/-- The error with which the call failed, if it did. -/
def error? (turn : Turn σ) : Option Error :=
  match turn.reply responder with
  | .ok _ => none
  | .error error => some error

theorem error?_eq_some_iff {turn : Turn σ} {error : Error} :
    turn.error? responder = some error ↔ turn.reply responder = .error error := by
  unfold error?
  cases turn.reply responder with
  | ok reply => simp
  | error cause => simp

/-- The first call that failed in a course, and its error. -/
def failure? (course : List (Turn σ)) : Option (Call × Error) :=
  course.findSome? fun turn => (turn.error? responder).map (turn.call, ·)

theorem failure?_append (turns others : List (Turn σ)) :
    failure? responder (turns ++ others) =
      (failure? responder turns).or (failure? responder others) :=
  List.findSome?_append

/-- A call that failed made no change. -/
theorem change?_eq_none {turn : Turn σ} {error : Error}
    (h : turn.reply responder = .error error) : turn.change? responder = none := by
  obtain ⟨call, before⟩ := turn
  cases call with
  | write w => simp only [change?, h]
  | _ => rfl

end Turn

/-! ## Programs -/

namespace Program

/-- The turns of a run, in order. -/
def course (responder : Responder σ) : Program α → σ → List (Turn σ)
  | .done _, _ => []
  | .ask call next, state =>
    ⟨call, state⟩ ::
      (next (responder call state).1).course responder (responder call state).2

theorem course_bind (responder : Responder σ) (program : Program α) (f : α → Program β)
    (state : σ) :
    (program.bind f).course responder state =
      program.course responder state ++
        (f (program.run responder state).1).course responder (program.run responder state).2 := by
  induction program generalizing state with
  | done result => rfl
  | ask call next ih => exact congrArg (_ :: ·) (ih _ _)

instance : LawfulMonad Program :=
  LawfulMonad.mk' Program (fun program => bind_done program) (fun _ _ => rfl) bind_assoc

/-- Every call that a program may ask has a property. -/
def Asks (p : Call → Prop) : Program α → Prop
  | .done _ => True
  | .ask call next => p call ∧ ∀ reply, (next reply).Asks p

namespace Asks

variable {p : Call → Prop}

theorem bind {program : Program α} {f : α → Program β} (h : program.Asks p)
    (hf : ∀ a, (f a).Asks p) : (program.bind f).Asks p := by
  induction program with
  | done result => exact hf result
  | ask call next ih => exact ⟨h.1, fun reply => ih reply (h.2 reply)⟩

theorem imp {r : Call → Prop} {program : Program α} (h : program.Asks p)
    (hpr : ∀ call, p call → r call) : program.Asks r := by
  induction program with
  | done result => exact trivial
  | ask call next ih => exact ⟨hpr call h.1, fun reply => ih reply (h.2 reply)⟩

theorem of_mem_course {responder : Responder σ} {program : Program α} {state : σ}
    (h : program.Asks p) : ∀ turn ∈ program.course responder state, p turn.call := by
  induction program generalizing state with
  | done result => exact fun _ hturn => absurd hturn List.not_mem_nil
  | ask call next ih =>
    rw [course, List.forall_mem_cons]
    exact ⟨h.1, ih _ (h.2 _)⟩

end Asks

/-- A property holds throughout a run: in the states between its calls, the first
    and the last one among them. -/
def Throughout (responder : Responder σ) (p : σ → Prop) : Program α → σ → Prop
  | .done _, state => p state
  | .ask call next, state =>
    p state ∧ (next (responder call state).1).Throughout responder p (responder call state).2

variable {responder : Responder σ} {p : σ → Prop} {program : Program α} {state : σ}

theorem throughout_iff :
    program.Throughout responder p state ↔
      (∀ turn ∈ program.course responder state, p turn.before) ∧
        p (program.run responder state).2 := by
  induction program generalizing state with
  | done result => exact ⟨fun h => ⟨fun _ hturn => absurd hturn List.not_mem_nil, h⟩, And.right⟩
  | ask call next ih =>
    rw [Throughout, ih, course, List.forall_mem_cons, run, and_assoc]

theorem Throughout.first (h : program.Throughout responder p state) : p state := by
  cases program with
  | done result => exact h
  | ask call next => exact h.1

theorem Throughout.last (h : program.Throughout responder p state) :
    p (program.run responder state).2 :=
  (throughout_iff.1 h).2

theorem Throughout.imp {q : σ → Prop} (h : program.Throughout responder p state)
    (hpq : ∀ s, p s → q s) : program.Throughout responder q state := by
  rw [throughout_iff] at h ⊢
  exact ⟨fun turn hturn => hpq _ (h.1 turn hturn), hpq _ h.2⟩

theorem throughout_bind {f : α → Program β} :
    (program.bind f).Throughout responder p state ↔
      program.Throughout responder p state ∧
        (f (program.run responder state).1).Throughout responder p
          (program.run responder state).2 := by
  induction program generalizing state with
  | done result => exact ⟨fun h => ⟨h.first, h⟩, And.right⟩
  | ask call next ih =>
    rw [bind, Throughout, ih, Throughout, run, and_assoc]

end Program

/-! ## Tasks -/

namespace CatalogTask

variable (task : CatalogTask α) (responder : Responder σ) (state : σ)

/-- The turns of the run of a task, in order. -/
def course : List (Turn σ) := Program.course responder task.run state

/-- The changes made in the run of a task, in order. -/
def changes : List Write := (course task responder state).filterMap (·.change? responder)

/-- The states between the calls of the run of a task, from the first to the
    last. -/
def states : List σ :=
  (course task responder state).map (·.before) ++ [(perform task responder state).2]

variable {task responder state} in
theorem forall_mem_states {p : σ → Prop} :
    (∀ s ∈ states task responder state, p s) ↔ Program.Throughout responder p task.run state := by
  rw [Program.throughout_iff, states, List.forall_mem_append, List.forall_mem_map,
    List.forall_mem_singleton]
  rfl

/-- Every call that a task may ask has a property. -/
def Asks (p : Call → Prop) (task : CatalogTask α) : Prop := Program.Asks p task.run

namespace Asks

variable {p : Call → Prop}

theorem pure (a : α) : Asks p (Pure.pure a) := trivial

theorem of_throw (error : Error) : Asks p (throw error : CatalogTask α) := trivial

theorem ask {call : Call} (h : p call) : Asks p (ShadowCatalog.ask call) := ⟨h, fun _ => trivial⟩

theorem bind {task : CatalogTask α} {f : α → CatalogTask β} (h : Asks p task)
    (hf : ∀ a, Asks p (f a)) : Asks p (task >>= f) := by
  refine Program.Asks.bind h ?_
  intro outcome
  cases outcome with
  | error error => exact trivial
  | ok a => exact hf a

end Asks

theorem failure?_ask (call : Call) :
    Turn.failure? responder (course (ask call) responder state) =
      (Turn.error? responder ⟨call, state⟩).map (call, ·) :=
  List.findSome?_singleton

theorem course_bind (task : CatalogTask α) (f : α → CatalogTask β) :
    course (task >>= f) responder state =
      course task responder state ++
        match perform task responder state with
        | (.ok a, later) => course (f a) responder later
        | (.error _, _) => [] := by
  refine (Program.course_bind responder task.run (ExceptT.bindCont f) state).trans
    (congrArg _ ?_)
  have hrun : Program.run responder task.run state = perform task responder state := rfl
  rw [hrun]
  rcases perform task responder state with ⟨_ | _, later⟩ <;> rfl

variable {responder state} in
theorem throughout_bind {p : σ → Prop} {task : CatalogTask α} {f : α → CatalogTask β} :
    Program.Throughout responder p (task >>= f).run state ↔
      Program.Throughout responder p task.run state ∧
        match perform task responder state with
        | (.ok a, later) => Program.Throughout responder p (f a).run later
        | (.error _, _) => True := by
  have hbind : Program.Throughout responder p (task >>= f).run state ↔
      Program.Throughout responder p task.run state ∧
        Program.Throughout responder p (ExceptT.bindCont f (perform task responder state).1)
          (perform task responder state).2 :=
    Program.throughout_bind
  refine hbind.trans (and_congr_right fun h => ?_)
  have hlast : p (perform task responder state).2 := h.last
  rcases hrun : perform task responder state with ⟨error | a, later⟩
  · rw [hrun] at hlast
    exact iff_of_true hlast trivial
  · rfl

/-- The last state of a run is among its states. -/
theorem perform_mem_states : (perform task responder state).2 ∈ states task responder state :=
  List.mem_append_right _ (List.mem_singleton_self _)

end CatalogTask

namespace SyncTask

/-- The turns of the run of a stretch, in order. -/
def course (task : SyncTask α) (responder : Responder σ) (report : SyncReport) (state : σ) :
    List (Turn σ) :=
  Program.course responder (task.run report) state

variable (responder : Responder σ) (report : SyncReport) (state : σ)

theorem perform_write (w : Write) :
    perform (write w) responder report state =
      (((responder (.write w) state).1,
        match (responder (.write w) state).1 with
        | .ok _ => report.counting w
        | .error _ => report),
        (responder (.write w) state).2) := rfl

theorem course_bind (task : SyncTask α) (f : α → SyncTask β) :
    course (task >>= f) responder report state =
      course task responder report state ++
        match perform task responder report state with
        | ((.ok a, report), later) => course (f a) responder report later
        | ((.error _, _), _) => [] := by
  have h := Program.course_bind responder (task.run report)
    (fun outcome => ExceptT.bindCont f outcome.1 outcome.2) state
  -- A stretch carries its report in the result of a program, so that a sequence of
  -- stretches is one of programs.
  have hrun : Program.run responder (task.run report) state =
    perform task responder report state := rfl
  rw [hrun] at h
  refine h.trans (congrArg _ ?_)
  rcases perform task responder report state with ⟨⟨_ | _, report⟩, later⟩ <;> rfl

variable {responder report state} in
/-- The turns of a sequence are those of its first half and, if that ended well, of the
    second. -/
theorem mem_course_bind {task : SyncTask α} {f : α → SyncTask β} {turn : Turn σ} :
    turn ∈ course (task >>= f) responder report state ↔
      turn ∈ course task responder report state ∨
        ∃ a middle later, perform task responder report state = ((.ok a, middle), later) ∧
          turn ∈ course (f a) responder middle later := by
  rw [course_bind, List.mem_append]
  refine or_congr_right ?_
  rcases perform task responder report state with ⟨⟨error | a, middle⟩, later⟩
  · exact iff_of_false List.not_mem_nil fun ⟨_, _, _, hrun, _⟩ => by cases hrun
  · exact ⟨fun hturn => ⟨a, middle, later, rfl, hturn⟩, fun ⟨_, _, _, hrun, hturn⟩ => by
      cases hrun
      exact hturn⟩

/-- A handler goes on where an error ended the task. -/
theorem run_tryCatch (task : SyncTask α) (handler : Error → SyncTask α) :
    (tryCatch task handler).run report =
      Program.bind (task.run report) fun outcome => match outcome.1 with
        | .ok a => .done (.ok a, outcome.2)
        | .error e => (handler e).run outcome.2 := by
  refine congrArg (Program.bind (task.run report)) ?_
  funext outcome
  rcases outcome with ⟨_ | _, report⟩ <;> rfl

theorem perform_tryCatch (task : SyncTask α) (handler : Error → SyncTask α) :
    perform (tryCatch task handler) responder report state =
      match perform task responder report state with
      | ((.ok a, report), later) => ((.ok a, report), later)
      | ((.error e, report), later) => perform (handler e) responder report later := by
  rw [perform, run_tryCatch, Program.run_bind, ← perform]
  rcases perform task responder report state with ⟨⟨_ | _, report⟩, later⟩ <;> rfl

theorem course_tryCatch (task : SyncTask α) (handler : Error → SyncTask α) :
    course (tryCatch task handler) responder report state =
      course task responder report state ++
        match perform task responder report state with
        | ((.ok _, _), _) => []
        | ((.error e, report), later) => course (handler e) responder report later := by
  rw [course, run_tryCatch, Program.course_bind, ← course]
  refine congrArg _ ?_
  rw [← perform]
  rcases perform task responder report state with ⟨⟨_ | _, report⟩, later⟩ <;> rfl

theorem perform_modify (f : SyncReport → SyncReport) :
    perform (modify f) responder report state = ((.ok (), f report), state) := rfl

/-- Every call that a stretch may ask has a property. -/
def Asks (p : Call → Prop) (task : SyncTask α) : Prop := ∀ report, Program.Asks p (task.run report)

namespace Asks

variable {p : Call → Prop}

theorem pure (a : α) : Asks p (Pure.pure a) := fun _ => trivial

theorem ask {call : Call} (h : p call) : Asks p (SyncTask.ask call) :=
  fun _ => ⟨h, fun _ => trivial⟩

theorem write {w : Write} (h : p (.write w)) : Asks p (SyncTask.write w) :=
  fun _ => ⟨h, fun _ => trivial⟩

theorem bind {task : SyncTask α} {f : α → SyncTask β} (h : Asks p task)
    (hf : ∀ a, Asks p (f a)) : Asks p (task >>= f) := by
  refine fun report => Program.Asks.bind (h report) ?_
  intro outcome
  rcases outcome with ⟨_ | a, report⟩
  · exact trivial
  · exact hf a report

theorem tryCatch {task : SyncTask α} {handler : Error → SyncTask α} (h : Asks p task)
    (hhandler : ∀ error, Asks p (handler error)) :
    Asks p (MonadExcept.tryCatch task handler) := by
  intro report
  rw [run_tryCatch]
  refine Program.Asks.bind (h report) ?_
  intro outcome
  rcases outcome with ⟨error | _, report⟩
  · exact hhandler error report
  · exact trivial

theorem of_modify (f : SyncReport → SyncReport) : Asks p (modify f) := fun _ => trivial

end Asks

/-- A property holds throughout the run of a stretch. -/
def Throughout (responder : Responder σ) (p : σ → Prop) (task : SyncTask α) (report : SyncReport)
    (state : σ) : Prop :=
  Program.Throughout responder p (task.run report) state

variable {responder report state} {p : σ → Prop}

theorem Throughout.first {task : SyncTask α} (h : Throughout responder p task report state) :
    p state :=
  Program.Throughout.first h

theorem Throughout.last {task : SyncTask α} (h : Throughout responder p task report state) :
    p (perform task responder report state).2 :=
  Program.Throughout.last h

theorem throughout_bind {task : SyncTask α} {f : α → SyncTask β} :
    Throughout responder p (task >>= f) report state ↔
      Throughout responder p task report state ∧
        match perform task responder report state with
        | ((.ok a, report), later) => Throughout responder p (f a) report later
        | ((.error _, _), _) => True := by
  have hbind : Throughout responder p (task >>= f) report state ↔
      Throughout responder p task report state ∧
        Program.Throughout responder p (ExceptT.bindCont f (perform task responder report state).1.1
          (perform task responder report state).1.2) (perform task responder report state).2 :=
    Program.throughout_bind
  -- After an error nothing is asked, and the last state is that of the first half.
  refine hbind.trans (and_congr_right fun h => ?_)
  have hlast := Throughout.last h
  rcases hrun : perform task responder report state with ⟨⟨error | a, report⟩, later⟩
  · rw [hrun] at hlast
    exact iff_of_true hlast trivial
  · rfl

theorem throughout_tryCatch {task : SyncTask α} {handler : Error → SyncTask α} :
    Throughout responder p (tryCatch task handler) report state ↔
      Throughout responder p task report state ∧
        match perform task responder report state with
        | ((.ok _, _), _) => True
        | ((.error e, report), later) => Throughout responder p (handler e) report later := by
  rw [Throughout, run_tryCatch, Program.throughout_bind]
  refine and_congr_right ?_
  intro h
  have hlast := Throughout.last h
  rw [← perform]
  rcases hrun : perform task responder report state with ⟨⟨error | a, report⟩, later⟩
  · rfl
  · rw [hrun] at hlast
    exact iff_of_true hlast trivial

end SyncTask

end ShadowCatalog
