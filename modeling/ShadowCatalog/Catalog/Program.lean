import ShadowCatalog.Catalog.Call

/-!
# Programs over the catalogs

What is done to the catalogs is written as a *program*: a tree that is either
done, with a result, or asks one call and goes on as the reply says. A program
knows nothing of who answers. It is run against a *responder*, which answers a
call in a state and moves to another state (`Program.run`); the responders of
this library are catalogs held in memory and a database server.

A *task* is a program that may end in an error. A failing call ends it, unless
the error is caught.
-/

namespace ShadowCatalog

/-- A program over the catalogs. -/
inductive Program (α : Type) : Type
  | done (result : α)
  | ask (call : Call) (next : Except Error call.Reply → Program α)

namespace Program

variable {α β σ : Type}

/-- The program that goes on with the result of another. -/
def bind : Program α → (α → Program β) → Program β
  | .done result, next => next result
  | .ask call later, next => .ask call fun reply => (later reply).bind next

instance : Monad Program where
  pure := .done
  bind := .bind

theorem bind_done (program : Program α) : program.bind .done = program := by
  induction program with
  | done result => rfl
  | ask call later ih => exact congrArg (Program.ask call) (funext ih)

theorem bind_assoc {γ : Type} (program : Program α) (f : α → Program β) (g : β → Program γ) :
    (program.bind f).bind g = program.bind fun a => (f a).bind g := by
  induction program with
  | done result => rfl
  | ask call later ih => exact congrArg (Program.ask call) (funext ih)

end Program

/-- Who answers calls: in a state, each call has a reply and a next state. -/
abbrev Responder (σ : Type) := (call : Call) → σ → Except Error call.Reply × σ

namespace Program

variable {α β σ : Type}

/-- The result of a program, and the state it leaves, when `responder` answers. -/
def run (responder : Responder σ) : Program α → σ → α × σ
  | .done result, state => (result, state)
  | .ask call next, state =>
    let (reply, later) := responder call state
    (next reply).run responder later

theorem run_bind (responder : Responder σ) (program : Program α) (f : α → Program β)
    (state : σ) :
    (program.bind f).run responder state =
      let (result, later) := program.run responder state
      (f result).run responder later := by
  induction program generalizing state with
  | done result => rfl
  | ask call next ih => exact ih _ _

end Program

/-- A program that may end in an error. -/
abbrev CatalogTask := ExceptT Error Program

/-- The task of one call. -/
def ask (call : Call) : CatalogTask call.Reply := ExceptT.mk (.ask call .done)

namespace CatalogTask

variable {α β σ : Type}

/-- The outcome of a task, and the state it leaves. -/
def perform (task : CatalogTask α) (responder : Responder σ) (state : σ) : Except Error α × σ :=
  Program.run responder task.run state

theorem perform_pure (a : α) (responder : Responder σ) (state : σ) :
    perform (pure a) responder state = (.ok a, state) := rfl

theorem perform_ask (call : Call) (responder : Responder σ) (state : σ) :
    perform (ask call) responder state = responder call state := rfl

theorem perform_bind (task : CatalogTask α) (f : α → CatalogTask β) (responder : Responder σ)
    (state : σ) :
    perform (task >>= f) responder state =
      match perform task responder state with
      | (.ok a, later) => perform (f a) responder later
      | (.error e, later) => (.error e, later) := by
  have hrun := Program.run_bind responder task.run (ExceptT.bindCont f) state
  have htask : Program.run responder task.run state = perform task responder state := rfl
  rw [htask] at hrun
  refine hrun.trans ?_
  rcases perform task responder state with ⟨_ | _, later⟩ <;> rfl

end CatalogTask

end ShadowCatalog
