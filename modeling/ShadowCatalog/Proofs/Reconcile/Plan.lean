import ShadowCatalog.Proofs.Catalog.Backing
import ShadowCatalog.Proofs.Memory.ShadowStore

/-!
# Plans

Most stretches of a pass run straight on: where no call is struck, the changes
that they make are settled by the store and the live catalog at their start, and
where one is struck, they end there and then, in its error. Such a stretch
*follows a plan*, the list of those changes (`Follows`): it makes all of them, or
a call is struck when it has made the first few.

* `Passage`: turns of a run none of which failed, with the changes that they made;
* `Follows.bind`: stretches that follow plans one after the other follow the one
  plan and then the other;
* `Follows.throughout`: whatever happens, between any two calls the store is as the
  first few changes of the plan have left it.
-/

namespace ShadowCatalog

/-- The report with more changes. -/
def SyncReport.countingAll (report : SyncReport) (ws : List Write) : SyncReport :=
  ws.foldl SyncReport.counting report

theorem SyncReport.countingAll_append (report : SyncReport) (ws vs : List Write) :
    report.countingAll (ws ++ vs) = (report.countingAll ws).countingAll vs := List.foldl_append

variable {α β σ : Type} {responder : Responder σ}

/-! ## Passages -/

/-- Turns one after the other, none of which failed, with the changes that they
    made. -/
inductive Backing.Passage (b : Backing responder) : σ → List (Turn σ) → List Write → σ → Prop
  | nil (state : σ) : Passage b state [] [] state
  | read {call : Call} {state later : σ} {reply : call.Reply} {turns : List (Turn σ)}
      {made : List Write} :
      (∀ w, call ≠ .write w) → (responder call state).1 = .ok reply →
      b.store (responder call state).2 = b.store state →
      Passage b (responder call state).2 turns made later →
      Passage b state (⟨call, state⟩ :: turns) made later
  | write {w : Write} {state later : σ} {reply : w.Reply} {turns : List (Turn σ)}
      {made : List Write} :
      (responder (.write w) state).1 = .ok reply →
      b.store (responder (.write w) state).2 = (b.store state).apply w →
      Passage b (responder (.write w) state).2 turns made later →
      Passage b state (⟨.write w, state⟩ :: turns) (w :: made) later

namespace Backing.Passage

variable {b : Backing responder} {start middle later : σ} {turns others : List (Turn σ)}
  {made more : List Write}

theorem append (h : b.Passage start turns made middle) (h' : b.Passage middle others more later) :
    b.Passage start (turns ++ others) (made ++ more) later := by
  induction h with
  | nil state => exact h'
  | read hread hreply hstore _ ih => exact .read hread hreply hstore (ih h')
  | write hreply hstore _ ih => exact .write hreply hstore (ih h')

theorem store_eq (h : b.Passage start turns made later) :
    b.store later = (b.store start).applyAll made := by
  induction h with
  | nil state => rfl
  | read _ _ hstore _ ih => rw [ih, hstore]
  | write _ hstore _ ih => rw [ih, hstore, ShadowStore.applyAll_cons]

theorem changes_eq (h : b.Passage start turns made later) :
    turns.filterMap (·.change? responder) = made := by
  induction h with
  | nil state => rfl
  | @read call state _ _ _ _ hread _ _ _ ih =>
    have hnone : Turn.change? responder ⟨call, state⟩ = none := by
      unfold Turn.change?
      split
      · next w _ hcall _ => exact absurd hcall (hread w)
      · rfl
    rw [List.filterMap_cons_none hnone, ih]
  | @write w state _ reply _ _ hreply _ _ ih =>
    have hsome : Turn.change? responder ⟨.write w, state⟩ = some w := by
      simp only [Turn.change?, Turn.reply, hreply]
    rw [List.filterMap_cons_some hsome, ih]

/-- Between any two turns, the store is as the first few changes have left it. -/
theorem before (h : b.Passage start turns made later) :
    ∀ turn ∈ turns, ∃ few, few <+: made ∧ b.store turn.before = (b.store start).applyAll few := by
  induction h with
  | nil state => exact fun _ hturn => absurd hturn List.not_mem_nil
  | read _ _ hstore _ ih =>
    intro turn hturn
    rcases List.mem_cons.1 hturn with rfl | hturn
    · exact ⟨[], List.nil_prefix, rfl⟩
    · obtain ⟨few, hfew, heq⟩ := ih turn hturn
      exact ⟨few, hfew, by rw [heq, hstore]⟩
  | @write w _ _ _ _ _ _ hstore _ ih =>
    intro turn hturn
    rcases List.mem_cons.1 hturn with rfl | hturn
    · exact ⟨[], List.nil_prefix, rfl⟩
    · obtain ⟨few, hfew, heq⟩ := ih turn hturn
      exact ⟨w :: few, List.cons_prefix_cons.2 ⟨rfl, hfew⟩, by rw [heq, hstore]; rfl⟩

/-- Every turn was answered. -/
theorem reply_eq (h : b.Passage start turns made later) :
    ∀ turn ∈ turns, ∃ reply, turn.reply responder = .ok reply := by
  induction h with
  | nil state => exact fun _ hturn => absurd hturn List.not_mem_nil
  | read _ hreply _ _ ih => exact List.forall_mem_cons.2 ⟨⟨_, hreply⟩, ih⟩
  | write hreply _ _ ih => exact List.forall_mem_cons.2 ⟨⟨_, hreply⟩, ih⟩

/-- The calls for a change are those that made the changes. -/
theorem mem_of_write (h : b.Passage start turns made later) :
    ∀ turn ∈ turns, ∀ w, turn.call = .write w → w ∈ made := by
  induction h with
  | nil state => exact fun _ hturn => absurd hturn List.not_mem_nil
  | read hread _ _ _ ih =>
    exact List.forall_mem_cons.2 ⟨fun w hw => absurd hw (hread w), ih⟩
  | write _ _ _ ih =>
    refine List.forall_mem_cons.2 ⟨fun v hv => ?_, fun turn hturn v hv => ?_⟩
    · rw [Call.write.inj hv]; exact List.mem_cons_self
    · exact List.mem_cons_of_mem _ (ih turn hturn v hv)

theorem failure?_eq_none (h : b.Passage start turns made later) :
    Turn.failure? responder turns = none := by
  refine List.findSome?_eq_none_iff.2 ?_
  intro turn hturn
  obtain ⟨reply, hreply⟩ := h.reply_eq turn hturn
  rw [Turn.error?, hreply]
  rfl

theorem live_eq (h : b.Passage start turns made later) (hsteady : b.Steady) :
    b.live later = b.live start := by
  induction h with
  | nil state => rfl
  | read _ _ _ _ ih => rw [ih, hsteady]
  | write _ _ _ ih => rw [ih, hsteady]

end Backing.Passage

/-! ## Stretches that follow a plan -/

section

variable (b : Backing responder) (task : SyncTask α) (report : SyncReport) (state : σ)

/-- A stretch gives `result` when it has made the changes of a plan. -/
structure Finishes (plan : List Write) (result : α) (later : σ) : Prop where
  passage : b.Passage state (task.course responder report state) plan later
  perform_eq :
    task.perform responder report state = ((.ok result, report.countingAll plan), later)

/-- A stretch ends in the error of a call that is struck when the changes `made` are
    made. -/
structure BreaksOff (turns : List (Turn σ)) (made : List Write) (call : Call) (middle : σ)
    (error : Error) : Prop where
  passage : b.Passage state turns made middle
  struck : b.Struck ⟨call, middle⟩ error
  store_eq : b.store (responder call middle).2 = b.store middle
  course_eq : task.course responder report state = turns ++ [⟨call, middle⟩]
  perform_eq : task.perform responder report state =
    ((.error error, report.countingAll made), (responder call middle).2)

/-- A stretch of a pass makes the changes of a plan and gives `result`, or a call
    is struck when the first few changes are made, and the stretch ends in the
    error of that call. -/
def Follows (plan : List Write) (result : α) : Prop :=
  ∀ report, (∃ later, Finishes b task report state plan result later) ∨
    ∃ turns made call middle error, made <+: plan ∧
      BreaksOff b task report state turns made call middle error

end

section

variable {b : Backing responder} {task : SyncTask α} {next : α → SyncTask β} {report : SyncReport}
  {state middle last later : σ} {plan others made : List Write} {turns : List (Turn σ)} {call : Call}
  {error : Error} {result : α} {final : β}

theorem Finishes.bind (h : Finishes b task report state plan result middle)
    (h' : Finishes b (next result) (report.countingAll plan) middle others final later) :
    Finishes b (task >>= next) report state (plan ++ others) final later := by
  refine ⟨?_, ?_⟩
  · rw [SyncTask.course_bind, h.perform_eq]
    exact h.passage.append h'.passage
  · rw [SyncTask.perform_bind, h.perform_eq, SyncReport.countingAll_append]
    exact h'.perform_eq

theorem Finishes.bind_breaksOff (h : Finishes b task report state plan result middle)
    (h' : BreaksOff b (next result) (report.countingAll plan) middle turns made call last error) :
    BreaksOff b (task >>= next) report state (task.course responder report state ++ turns)
      (plan ++ made) call last error := by
  refine ⟨h.passage.append h'.passage, h'.struck, h'.store_eq, ?_, ?_⟩
  · rw [SyncTask.course_bind, h.perform_eq, List.append_assoc]
    exact congrArg _ h'.course_eq
  · rw [SyncTask.perform_bind, h.perform_eq, SyncReport.countingAll_append]
    exact h'.perform_eq

/-- What would come after a call that is struck is not begun. -/
theorem BreaksOff.bind (h : BreaksOff b task report state turns made call middle error)
    (next : α → SyncTask β) :
    BreaksOff b (task >>= next) report state turns made call middle error := by
  refine ⟨h.passage, h.struck, h.store_eq, ?_, ?_⟩
  · rw [SyncTask.course_bind, h.perform_eq, h.course_eq]
    exact List.append_nil _
  · rw [SyncTask.perform_bind, h.perform_eq]

/-- The call that is struck is the first that fails. -/
theorem BreaksOff.failure?_eq (h : BreaksOff b task report state turns made call middle error) :
    Turn.failure? responder (task.course responder report state) = some (call, error) := by
  have hstruck := (Turn.error?_eq_some_iff responder).2 h.struck.1
  have hturns : turns.findSome? _ = none := h.passage.failure?_eq_none
  rw [h.course_eq, Turn.failure?, List.findSome?_append, hturns, Option.none_or,
    List.findSome?_singleton, hstruck]
  rfl

end

namespace Follows

variable {b : Backing responder} {state : σ}

theorem pure (result : α) : Follows b (Pure.pure result) state [] result :=
  fun _ => .inl ⟨state, .nil state, rfl⟩

theorem ask {call : Call} {reply : call.Reply} (hread : ∀ w, call ≠ .write w)
    (h : (b.live state).respond call (b.store state) = (.ok reply, b.store state)) :
    Follows b (SyncTask.ask call) state [] reply := by
  intro report
  rcases b.reply_or_struck h with ⟨hreply, hstore⟩ | ⟨error, hstruck, hstore⟩
  · refine .inl ⟨_, .read hread hreply hstore (.nil _), ?_⟩
    rw [SyncTask.perform_ask, hreply]; rfl
  · refine .inr ⟨[], [], call, state, error, List.prefix_rfl, .nil _, hstruck, hstore, rfl, ?_⟩
    rw [SyncTask.perform_ask, show (responder call state).1 = .error error from hstruck.1]; rfl

theorem write {w : Write} {reply : w.Reply} {later : ShadowStore}
    (h : (b.store state).write w = .ok (reply, later)) :
    Follows b (SyncTask.write w) state [w] reply := by
  intro report
  have hrespond : (b.live state).respond (.write w) (b.store state) = (.ok reply, later) := by
    simp only [LiveView.respond, h]
  rcases b.reply_or_struck hrespond with ⟨hreply, hstore⟩ | ⟨error, hstruck, hstore⟩
  · refine .inl ⟨_, .write hreply ?_ (.nil _), ?_⟩
    · rw [hstore, ShadowStore.apply_of_write h]
    · rw [SyncTask.perform_write, hreply]; rfl
  · refine .inr ⟨[], [], .write w, state, error, List.nil_prefix, .nil _, hstruck, hstore, rfl, ?_⟩
    rw [SyncTask.perform_write, show (responder (.write w) state).1 = .error error from hstruck.1]
    rfl

theorem bind {task : SyncTask α} {next : α → SyncTask β} {plan others : List Write} {result : α}
    {final : β} (h : Follows b task state plan result)
    (hnext : ∀ later, b.store later = (b.store state).applyAll plan →
      Follows b (next result) later others final) :
    Follows b (task >>= next) state (plan ++ others) final := by
  intro report
  -- Either the first stretch comes to its end, and the second decides how it goes on,
  -- or a call is struck in the first, and the second is not begun.
  rcases h report with ⟨middle, hfirst⟩ | ⟨turns, made, call, middle, error, hmade, hfirst⟩
  · rcases hnext middle hfirst.passage.store_eq (report.countingAll plan) with
      ⟨later, hsecond⟩ | ⟨turns, made, call, last, error, hmade, hsecond⟩
    · exact .inl ⟨later, hfirst.bind hsecond⟩
    · exact .inr ⟨_, _, call, last, error, (List.prefix_append_right_inj plan).2 hmade,
        hfirst.bind_breaksOff hsecond⟩
  · exact .inr ⟨turns, made, call, middle, error, hmade.trans (List.prefix_append _ _),
      hfirst.bind next⟩

/-- What goes on without changes follows the same plan. -/
theorem bind_quiet {task : SyncTask α} {next : α → SyncTask β} {plan : List Write} {result : α}
    {final : β} (h : Follows b task state plan result)
    (hnext : ∀ later, b.store later = (b.store state).applyAll plan →
      Follows b (next result) later [] final) :
    Follows b (task >>= next) state plan final := by
  have hbind := h.bind hnext
  rwa [List.append_nil] at hbind

theorem bind_pure {task : SyncTask α} {plan : List Write} {result : α}
    (h : Follows b task state plan result) (f : α → β) :
    Follows b (task >>= fun a => Pure.pure (f a)) state plan (f result) :=
  h.bind_quiet fun _ _ => .pure _

/-- A stretch that ends well has made its plan. -/
theorem of_ok {task : SyncTask α} {plan : List Write} {result a : α} {report report' : SyncReport}
    {later : σ} (h : Follows b task state plan result)
    (hrun : task.perform responder report state = ((.ok a, report'), later)) :
    a = result ∧ report' = report.countingAll plan ∧
      b.Passage state (task.course responder report state) plan later := by
  rcases h report with ⟨middle, hpass, hrun'⟩ | ⟨_, _, _, _, _, _, _, _, _, _, hrun'⟩
  · rw [hrun'] at hrun
    cases hrun
    exact ⟨rfl, rfl, hpass⟩
  · rw [hrun'] at hrun
    cases hrun

/-- Whatever happens, the changes made are the first few of the plan. -/
theorem changes_isPrefix {task : SyncTask α} {plan : List Write} {result : α}
    (h : Follows b task state plan result) (report : SyncReport) :
    (task.course responder report state).filterMap (·.change? responder) <+: plan := by
  rcases h report with ⟨later, hdone⟩ | ⟨turns, made, call, middle, error, hmade, hbreaks⟩
  · exact hdone.passage.changes_eq ▸ List.prefix_rfl
  · rw [hbreaks.course_eq, List.filterMap_append, hbreaks.passage.changes_eq,
      List.filterMap_cons_none (Turn.change?_eq_none responder hbreaks.struck.1)]
    rwa [List.filterMap_nil, List.append_nil]

/-- Whatever happens, between any two calls the store is as the first few changes
    of the plan have left it, and so it is in the end. -/
theorem throughout {task : SyncTask α} {plan : List Write} {result : α}
    (h : Follows b task state plan result) {p : ShadowStore → Prop}
    (hplan : ∀ few, few <+: plan → p ((b.store state).applyAll few)) (report : SyncReport) :
    task.Throughout responder (fun s => p (b.store s)) report state := by
  refine Program.throughout_iff.2 ?_
  change (∀ turn ∈ task.course responder report state, p (b.store turn.before)) ∧
    p (b.store (task.perform responder report state).2)
  -- The call that is struck changes nothing, so that the first few changes are also
  -- all that was made in the end.
  rcases h report with ⟨later, hpass, hrun⟩ |
    ⟨turns, made, call, middle, error, hmade, hpass, _, hstore, hcourse, hrun⟩
  · rw [hrun]
    refine ⟨fun turn hturn => ?_, hpass.store_eq ▸ hplan plan List.prefix_rfl⟩
    obtain ⟨few, hfew, heq⟩ := hpass.before turn hturn
    exact heq ▸ hplan few hfew
  · rw [hcourse, hrun]
    have hmiddle : p (b.store middle) := hpass.store_eq ▸ hplan made hmade
    refine ⟨fun turn hturn => ?_, hstore ▸ hmiddle⟩
    rcases List.mem_append.1 hturn with hturn | hturn
    · obtain ⟨few, hfew, heq⟩ := hpass.before turn hturn
      exact heq ▸ hplan few (hfew.trans hmade)
    · rw [List.mem_singleton.1 hturn]
      exact hmiddle

/-- Where every call is answered, a stretch makes its plan. -/
theorem perform_eq {live : LiveView} {task : SyncTask α} {store : ShadowStore} {plan : List Write}
    {result : α} (h : Follows live.backing task store plan result) (report : SyncReport) :
    task.perform live.respond report store =
      ((.ok result, report.countingAll plan), store.applyAll plan) ∧
    live.backing.Passage store (task.course live.respond report store) plan
      (store.applyAll plan) := by
  rcases h report with ⟨later, hpass, hrun⟩ | ⟨_, _, _, _, _, _, _, hstruck, _⟩
  · have hlater : later = store.applyAll plan := hpass.store_eq
    rw [← hlater]
    exact ⟨hrun, hpass⟩
  · exact absurd hstruck (live.not_struck _ _)

end Follows

end ShadowCatalog
