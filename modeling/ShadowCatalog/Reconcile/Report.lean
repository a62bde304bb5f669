import ShadowCatalog.Catalog.Program

/-!
# Sync reports

What one pass changed, by kind, and which tables it had to leave out.
-/

namespace ShadowCatalog

/-- A table whose columns could not be reconciled, and why. -/
structure SkippedTable where
  table : String
  reason : String
  deriving DecidableEq, Repr

/-- What a pass changed. -/
structure SyncReport where
  tablesRenamed : Nat := 0
  tablesRefreshed : Nat := 0
  tablesRemoved : Nat := 0
  tablesInserted : Nat := 0
  columnsInserted : Nat := 0
  columnsUpdated : Nat := 0
  columnsDeleted : Nat := 0
  layoutsSaved : Nat := 0
  tablesSkipped : List SkippedTable := []
  deriving DecidableEq, Repr

namespace SyncReport

/-- The number of changes. -/
def writes (r : SyncReport) : Nat :=
  r.tablesRenamed + r.tablesRefreshed + r.tablesRemoved + r.tablesInserted +
    r.columnsInserted + r.columnsUpdated + r.columnsDeleted + r.layoutsSaved

/-- The report with one more change. A pass chooses no label columns. -/
def counting (r : SyncReport) : Write → SyncReport
  | .insertTable .. => { r with tablesInserted := r.tablesInserted + 1 }
  | .renameTable .. => { r with tablesRenamed := r.tablesRenamed + 1 }
  | .updatePhysicalId .. => { r with tablesRefreshed := r.tablesRefreshed + 1 }
  | .deleteTable _ => { r with tablesRemoved := r.tablesRemoved + 1 }
  | .saveLayout .. => { r with layoutsSaved := r.layoutsSaved + 1 }
  | .setLabelColumn .. => r
  | .insertColumn .. => { r with columnsInserted := r.columnsInserted + 1 }
  | .updateColumn _ => { r with columnsUpdated := r.columnsUpdated + 1 }
  | .deleteColumn _ => { r with columnsDeleted := r.columnsDeleted + 1 }

/-- The report with one more table left out. -/
def skipping (r : SyncReport) (table : String) (cause : Error) : SyncReport :=
  { r with tablesSkipped := r.tablesSkipped ++ [⟨table, cause.message⟩] }

end SyncReport

/-- A stretch of a pass: a task that keeps a report, also of what was done before
    an error. -/
abbrev SyncTask := ExceptT Error (StateT SyncReport Program)

namespace SyncTask

/-- A question, of which nothing is reported. -/
def ask (call : Call) : SyncTask call.Reply :=
  ExceptT.mk fun report => .ask call fun reply => .done (reply, report)

/-- A change, which is reported if it succeeds. -/
def write (w : Write) : SyncTask w.Reply :=
  ExceptT.mk fun report => .ask (.write w) fun reply =>
    .done (reply, match reply with | .ok _ => report.counting w | .error _ => report)

variable {α β σ : Type}

/-- The outcome of a stretch, with the report, and the state it leaves. -/
def perform (task : SyncTask α) (responder : Responder σ) (report : SyncReport) (state : σ) :
    (Except Error α × SyncReport) × σ :=
  Program.run responder (task.run report) state

theorem perform_pure (a : α) (responder : Responder σ) (report : SyncReport) (state : σ) :
    perform (pure a) responder report state = ((.ok a, report), state) := rfl

theorem perform_ask (call : Call) (responder : Responder σ) (report : SyncReport) (state : σ) :
    perform (ask call) responder report state =
      (((responder call state).1, report), (responder call state).2) := rfl

theorem perform_bind (task : SyncTask α) (f : α → SyncTask β) (responder : Responder σ)
    (report : SyncReport) (state : σ) :
    perform (task >>= f) responder report state =
      match perform task responder report state with
      | ((.ok a, report), later) => perform (f a) responder report later
      | ((.error e, report), later) => ((.error e, report), later) := by
  have hrun := Program.run_bind responder (task.run report)
    (fun outcome => ExceptT.bindCont f outcome.1 outcome.2) state
  have htask : Program.run responder (task.run report) state =
    perform task responder report state := rfl
  rw [htask] at hrun
  refine hrun.trans ?_
  rcases perform task responder report state with ⟨⟨_ | _, report⟩, later⟩ <;> rfl

end SyncTask

end ShadowCatalog
