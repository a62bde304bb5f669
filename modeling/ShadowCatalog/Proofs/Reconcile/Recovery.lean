import ShadowCatalog.Proofs.Memory.World
import ShadowCatalog.Proofs.Reconcile.Pass
import ShadowCatalog.Proofs.Reconcile.Resumption

/-!
# Recovery from passes that were cut short

A pass is not a transaction. It is *cut short* where a call of its opening fails
(`CutShort`): it ends in that error, when it has made the first few changes
of the plan for the tables, and no others (`syncPass_of_cutShort`). Any number of
passes may be cut short one after the other (`Backing.Aborts`). As what is left of a
plan is what is planned anew (`Registry.plan_eq_append`), they have made, all
together, the first few changes of the plan of the first of them
(`Backing.Aborts.exists_isPrefix`).

So nothing is lost and nothing is done twice: a pass that is not cut short comes
in the end to the very store to which it would have come in the beginning
(`syncPass_recovers`).
-/

namespace ShadowCatalog

variable {σ : Type} {responder : Responder σ} {b : Backing responder} {state : σ}
  {policy : OrderPolicy} {live : LiveView} {start store : ShadowStore} {error : Error}

/-! ## Passes cut short -/

/-- A pass is cut short by an error: a call of its opening fails with it. -/
def CutShort (responder : Responder σ) (policy : OrderPolicy) (state : σ) (error : Error) : Prop :=
  ∃ turn ∈ (syncPass policy).course responder state,
    turn.call.ofRegistry = true ∧ turn.reply responder = .error error

/-- The stores to which passes lead that were all cut short, one after the other. -/
inductive Backing.Aborts (b : Backing responder) (policy : OrderPolicy) (live : LiveView)
    (start : ShadowStore) : ShadowStore → Prop
  | none : Aborts b policy live start start
  | pass {state : σ} {error : Error} : Aborts b policy live start (b.store state) →
      b.live state = live → CutShort responder policy state error →
      Aborts b policy live start (b.store ((syncPass policy).perform responder state).2)

/-- A pass that is cut short ends in the error, with the first few changes made that
    were planned for the tables. -/
theorem syncPass_of_cutShort (h : (b.store state).WellKeyed)
    (hcut : CutShort responder policy state error) :
    ∃ few later, few <+: Registry.plan (b.live state).tables (b.store state) ∧
      (syncPass policy).perform responder state = (.error error, later) ∧
      b.store later = (b.store state).applyAll few ∧
      (syncPass policy).changes responder state = few := by
  obtain ⟨turn, hturn, hregistry, herror⟩ := hcut
  have hanswered {turns : List (Turn σ)} {made : List Write} {later : σ}
      (hpassage : b.Passage state turns made later) : turn ∉ turns := fun hmem => by
    obtain ⟨reply, hreply⟩ := hpassage.reply_eq turn hmem
    rw [herror] at hreply
    cases hreply
  rcases follows_opening h {} with ⟨middle, hpassage, hrun⟩ |
    ⟨turns, few, call, middle, cause, hfew, hpassage, hstruck, hstore, hcourse, hrun⟩
  -- The call that failed would be one of the second part.
  · rw [(syncPass_of_opening_ok policy hrun).2] at hturn
    rcases List.mem_append.1 hturn with hturn | hturn
    · exact absurd hturn (hanswered hpassage)
    · have hnot := Program.Asks.of_mem_course (asks_reconcileEach policy _ _) turn hturn
      rw [hregistry] at hnot
      cases hnot
  · obtain ⟨hperform, hsame⟩ := syncPass_of_opening_error policy hrun
    rw [hsame, hcourse] at hturn
    have hlast : turn = ⟨call, middle⟩ := by
      rcases List.mem_append.1 hturn with hturn | hturn
      · exact absurd hturn (hanswered hpassage)
      · exact List.mem_singleton.1 hturn
    have hcause : cause = error := by
      have := hstruck.1
      rw [← hlast, herror] at this
      exact (Except.error.inj this).symm
    refine ⟨few, _, hfew, hcause ▸ hperform, hstore.trans hpassage.store_eq, ?_⟩
    rw [CatalogTask.changes, hsame, hcourse, List.filterMap_append, hpassage.changes_eq,
      List.filterMap_cons_none (Turn.change?_eq_none responder hstruck.1)]
    exact List.append_nil few

/-! ## Recovery -/

/-- Passes that were all cut short have made the first few changes of the plan of
    the first of them. -/
theorem Backing.Aborts.exists_isPrefix (h : start.WellKeyed)
    (hids : live.tables.Pairwise (·.physicalId ≠ ·.physicalId))
    (hnames : live.tables.Pairwise (·.name ≠ ·.name)) (haborts : b.Aborts policy live start store) :
    ∃ few, few <+: Registry.plan live.tables start ∧ store = start.applyAll few := by
  induction haborts with
  | none => exact ⟨[], List.nil_prefix, rfl⟩
  | @pass state error _ hlive hcut ih =>
    -- What the passes before have made is the beginning of the plan, and what this one
    -- makes is the beginning of the rest of it.
    obtain ⟨few, hfew, hstore⟩ := ih
    have hkeyed : (b.store state).WellKeyed := hstore ▸ h.applyAll few
    obtain ⟨more, later, hmore, hperform, hlater, _⟩ := syncPass_of_cutShort hkeyed hcut
    have hrest := Registry.plan_eq_append h hids hnames hfew
    rw [hlive, hstore] at hmore
    refine ⟨few ++ more, ?_, ?_⟩
    · rw [hrest]
      exact (List.prefix_append_right_inj few).2 hmore
    · rw [hperform, hlater, hstore, ShadowStore.applyAll_append]

/-- After passes that were cut short, a pass leads where it would have led before. -/
theorem Backing.Aborts.applyAll_passPlan (h : start.WellKeyed)
    (hids : live.tables.Pairwise (·.physicalId ≠ ·.physicalId))
    (hnames : live.tables.Pairwise (·.name ≠ ·.name)) (haborts : b.Aborts policy live start store) :
    store.applyAll (passPlan policy live store) = start.applyAll (passPlan policy live start) := by
  obtain ⟨few, hfew, rfl⟩ := haborts.exists_isPrefix h hids hnames
  -- The columns are only reached when the registry is as it should be, and then it
  -- is the same however often the pass was begun.
  have hopened : (start.applyAll few).applyAll (Registry.plan live.tables (start.applyAll few)) =
      start.applyAll (Registry.plan live.tables start) := by
    rw [← ShadowStore.applyAll_append, ← Registry.plan_eq_append h hids hnames hfew]
  rw [passPlan, passPlan, ShadowStore.applyAll_append, ShadowStore.applyAll_append, hopened]

/-- Passes that are cut short do no harm. Each ends in the error of the call that
    failed, when it has made the first few changes that it would have made, and only
    such as are of the registry. After them, a pass in which no call fails leads to
    the store to which it would have led in place of the first. -/
theorem syncPass_recovers (b : Backing responder) (policy : OrderPolicy) (hsteady : b.Steady)
    (hreach : start.Reachable) (hids : live.tables.Pairwise (·.physicalId ≠ ·.physicalId))
    (hnames : live.tables.Pairwise (·.name ≠ ·.name)) :
    (∀ state error, b.Aborts policy live start (b.store state) → b.live state = live →
      CutShort responder policy state error →
        ((syncPass policy).perform responder state).1 = .error error ∧
        (syncPass policy).changes responder state <+:
          (syncPass policy).changes live.respond (b.store state) ∧
        ∀ w ∈ (syncPass policy).changes responder state, w.ofRegistry = true) ∧
    ∀ state, b.Aborts policy live start (b.store state) → b.live state = live →
      Unfailing responder ((syncPass policy).course responder state) →
        ∃ report later, (syncPass policy).perform responder state = (.ok report, later) ∧
          b.store later = ((syncPass policy).perform live.respond start).2 := by
  have hkeyed {store : ShadowStore} (haborts : b.Aborts policy live start store) :
      store.WellKeyed := by
    obtain ⟨few, _, rfl⟩ := haborts.exists_isPrefix hreach.wellKeyed hids hnames
    exact hreach.wellKeyed.applyAll few
  refine ⟨fun state error haborts hlive hcut => ?_, fun state haborts hlive hunfailing => ?_⟩
  · obtain ⟨few, later, hfew, hperform, _, hchanges⟩ := syncPass_of_cutShort (hkeyed haborts) hcut
    have hwhole := (syncPass_respond policy live (hkeyed haborts)).2.changes_eq
    rw [hperform, hchanges]
    refine ⟨rfl, ?_, fun w hw => Registry.ofRegistry_of_mem_plan w (hfew.subset hw)⟩
    rw [CatalogTask.changes, hwhole, ← hlive]
    exact hfew.trans (List.prefix_append _ _)
  · obtain ⟨hsame, _⟩ := b.run_of_unfailing hsteady (syncPass policy).run hunfailing
    obtain ⟨hrun, _⟩ := syncPass_respond policy live (hkeyed haborts)
    rw [hlive] at hsame
    obtain ⟨houtcome, hstore⟩ := Prod.mk.inj (hrun.symm.trans hsame)
    refine ⟨_, _, Prod.ext houtcome.symm rfl, ?_⟩
    rw [(syncPass_respond policy live hreach.wellKeyed).1,
      ← haborts.applyAll_passPlan hreach.wellKeyed hids hnames]
    exact hstore.symm

/-- Whether a pass was cut short can be computed. -/
theorem cutShort_of_any
    (h : ((syncPass policy).course responder state).any (fun turn =>
      turn.call.ofRegistry && turn.error? responder = some error) = true) :
    CutShort responder policy state error := by
  obtain ⟨turn, hturn, htrue⟩ := List.any_eq_true.1 h
  rw [Bool.and_eq_true, decide_eq_true_iff, Turn.error?_eq_some_iff] at htrue
  exact ⟨turn, hturn, htrue⟩

/-- Two tables swapped names and a third one is new. A pass will fail between the two
    renames, and the next one when the third table is to be tracked. -/
def interrupted : World where
  live.entries := [⟨⟨1, "b"⟩, []⟩, ⟨⟨2, "a"⟩, []⟩,
    ⟨⟨3, "c"⟩, [⟨1, "id", "int", false, none, true, none⟩]⟩]
  store := ShadowStore.applyAll {} [.insertTable "a" 1, .insertTable "b" 2]
  faults := [⟨.renameTable, 1, 1, .catalog (.cancelled "first")⟩,
    ⟨.insertTable, 0, 1, .catalog (.cancelled "second")⟩]

theorem syncPass_recovers_interrupted :
    ∃ first second final report,
      (syncPass DisplayOrder.merge).perform World.respond interrupted =
        (.error (.catalog (.cancelled "first")), first) ∧
      first.store.writes = 3 ∧
      (syncPass DisplayOrder.merge).perform World.respond first =
        (.error (.catalog (.cancelled "second")), second) ∧
      second.store.writes = 4 ∧
      (syncPass DisplayOrder.merge).perform World.respond second = (.ok report, final) ∧
      final.store =
        ((syncPass DisplayOrder.merge).perform interrupted.view.respond interrupted.store).2 := by
  obtain ⟨first, hfirst⟩ :
    ∃ first, ((syncPass DisplayOrder.merge).perform World.respond interrupted).2 = first := ⟨_, rfl⟩
  obtain ⟨second, hsecond⟩ :
    ∃ second, ((syncPass DisplayOrder.merge).perform World.respond first).2 = second := ⟨_, rfl⟩
  have hreach : interrupted.store.Reachable := ShadowStore.Reachable.empty.applyAll _
  have hids : interrupted.view.tables.Pairwise (·.physicalId ≠ ·.physicalId) := by decide
  have hnames : interrupted.view.tables.Pairwise (·.name ≠ ·.name) := by decide
  obtain ⟨hcut, hrecovers⟩ :=
    syncPass_recovers World.backing DisplayOrder.merge World.steady hreach hids hnames
  have hcut₁ : CutShort World.respond DisplayOrder.merge interrupted
      (.catalog (.cancelled "first")) := cutShort_of_any (by cbv)
  have hcut₂ : CutShort World.respond DisplayOrder.merge first
      (.catalog (.cancelled "second")) := by
    rw [← hfirst]
    exact cutShort_of_any (by cbv)
  have hlive₁ : World.backing.live first = interrupted.view := hfirst ▸ World.steady.run _ _
  have hlive₂ : World.backing.live second = interrupted.view :=
    (hsecond ▸ World.steady.run _ _).trans hlive₁
  have haborts₁ : World.backing.Aborts DisplayOrder.merge interrupted.view interrupted.store
      (World.backing.store first) := hfirst ▸ .pass .none rfl hcut₁
  have haborts₂ : World.backing.Aborts DisplayOrder.merge interrupted.view interrupted.store
      (World.backing.store second) := hsecond ▸ .pass haborts₁ hlive₁ hcut₂
  have hunfailing : Unfailing World.respond
      ((syncPass DisplayOrder.merge).course World.respond second) := by
    rw [← hsecond, ← hfirst]
    exact unfailing_of_all (by cbv)
  obtain ⟨report, final, hfinal, hstore⟩ := hrecovers second haborts₂ hlive₂ hunfailing
  refine ⟨first, second, final, report, Prod.ext (hcut interrupted _ .none rfl hcut₁).1 hfirst,
    ?_, Prod.ext (hcut first _ haborts₁ hlive₁ hcut₂).1 hsecond, ?_, hfinal, hstore⟩
  · rw [← hfirst]
    cbv
  · rw [← hsecond, ← hfirst]
    cbv

end ShadowCatalog
