import Mathlib
import ShadowCatalog.Memory.World
import ShadowCatalog.Proofs.Catalog.Backing

/-!
# Catalogs in memory as a backing

The catalogs in memory back their own responder (`World.backing`): a call is
answered from them, or it fails, because a fault strikes or because a listing was
made to fail, and then nothing changes but the faults. No call changes the live
catalog (`World.steady`).

Whole passes are run on these catalogs by `cbv`, as a merge sort does not reduce in the
kernel. `cbv` unfolds the functions of the core by equations that the library states in
many of its files; hence it is imported as a whole here, and nowhere else.
-/

namespace ShadowCatalog.World

/-- The live catalog of a world, as it is when listings do not fail. -/
def view (world : World) : LiveView where
  tables := world.liveListing.getD (world.live.entries.map (·.table))
  columns table :=
    ((world.live.entries.find? (·.table.name = table)).elim [] (·.columns)).mergeSort
      fun a b => a.position ≤ b.position
  foreignKeys := world.live.foreignKeysOf

theorem liveTables_eq (world : World) :
    world.liveTables = .ok world.view.tables ∨ ∃ cause, world.liveTables = .error cause := by
  cases hlisting : world.liveListing with
  | some tables => exact .inl (by simp only [liveTables, view, hlisting, Option.getD_some])
  | none =>
    simp only [liveTables, view, hlisting, Option.getD_none, LiveCatalog.liveTables]
    by_cases hfails : world.live.listingFails = true
    · exact .inr ⟨_, if_pos hfails⟩
    · exact .inl (if_neg hfails)

theorem liveColumns_eq (world : World) (table : String) :
    world.live.liveColumns table = .ok (world.view.columns table) ∨
      ∃ cause, world.live.liveColumns table = .error cause := by
  unfold LiveCatalog.liveColumns
  split
  · exact .inr ⟨_, rfl⟩
  · exact .inl rfl

/-- Where no fault strikes, a call is answered from the catalogs, or a listing
    fails. -/
theorem answer_eq (world : World) (call : Call) :
    ((world.answer call).1, (world.answer call).2.store) =
        world.view.respond call world.store ∨
      (∃ error, (world.answer call).1 = .error error) ∧
        (world.answer call).2.store = world.store := by
  cases call with
  | liveTables =>
    rcases world.liveTables_eq with h | ⟨cause, h⟩
    · exact .inl (by rw [answer, h]; rfl)
    · exact .inr ⟨⟨.catalog cause, by rw [answer, h]; rfl⟩, rfl⟩
  | liveColumns table =>
    rcases world.liveColumns_eq table with h | ⟨cause, h⟩
    · exact .inl (by rw [answer, h]; rfl)
    · exact .inr ⟨⟨.catalog cause, by rw [answer, h]; rfl⟩, rfl⟩
  | foreignKeys table => exact .inl rfl
  | trackedTables => exact .inl rfl
  | trackedTable name => exact .inl rfl
  | trackedColumns table => exact .inl rfl
  | write w =>
    refine .inl ?_
    cases hw : world.store.write w with
    | error cause => simp only [answer, LiveView.respond, hw]
    | ok answered => simp only [answer, LiveView.respond, hw]

/-- The catalogs in memory. -/
def backing : Backing respond where
  live := view
  store := store
  answered call world := by
    unfold respond
    split
    · next error faults _ => exact .inr ⟨⟨error, rfl⟩, rfl⟩
    · next faults _ => exact answer_eq { world with faults } call

/-- No call changes the live catalog. -/
theorem steady : backing.Steady := by
  intro call world
  change (respond call world).2.view = world.view
  unfold respond
  split
  · rfl
  · cases call with
    | write w =>
      unfold answer
      dsimp only
      split <;> rfl
    | _ => rfl

/-- The tables that are listed and the columns of each table differ, as they do where
    they are kept. -/
theorem view_distinct {world : World}
    (htables : world.view.tables.Pairwise (·.physicalId ≠ ·.physicalId))
    (hcolumns : ∀ entry ∈ world.live.entries, entry.columns.Pairwise (·.position ≠ ·.position)) :
    world.view.Distinct := by
  refine ⟨htables, fun table => ?_⟩
  refine (List.mergeSort_perm _ _).symm.pairwise ?_ fun hne heq => hne heq.symm
  cases hfind : world.live.entries.find? (·.table.name = table) with
  | none => exact .nil
  | some entry => exact hcolumns entry (List.mem_of_find?_eq_some hfind)

/-! ## Without faults -/

/-- Nothing is made to fail, and the live tables are listed as they are. -/
structure Calm (world : World) : Prop where
  faults : world.faults = []
  liveListing : world.liveListing = none
  failingTables : world.live.failingTables = []
  listingFails : world.live.listingFails = false

variable {world : World}

/-- Without faults, a call is answered from the catalogs, and what was said of the live
    catalog stays true. -/
theorem Calm.respond_eq (h : world.Calm) (call : Call) :
    ((respond call world).1, (respond call world).2.store) =
        world.view.respond call world.store ∧
      (respond call world).2.live = world.live ∧ (respond call world).2.Calm := by
  have hanswer : respond call world = world.answer call := by
    rw [respond, h.faults]
    obtain ⟨live, store, faults, listing, log⟩ := world
    cases h.faults
    rfl
  rw [hanswer]
  cases call with
  | liveTables =>
    have hlisted : world.liveTables = .ok world.view.tables := by
      simp [World.liveTables, LiveCatalog.liveTables, view, h.liveListing, h.listingFails]
    exact ⟨by rw [answer, hlisted]; rfl, rfl, h⟩
  | liveColumns table =>
    have hlisted : world.live.liveColumns table = .ok (world.view.columns table) := by
      simp [LiveCatalog.liveColumns, view, h.failingTables]
    exact ⟨by rw [answer, hlisted]; rfl, rfl, h⟩
  | write w =>
    cases hw : world.store.write w with
    | error cause =>
      simp only [answer, LiveView.respond, hw]
      exact ⟨trivial, trivial, h⟩
    | ok answered =>
      simp only [answer, LiveView.respond, hw]
      exact ⟨trivial, trivial, h.faults, h.liveListing, h.failingTables, h.listingFails⟩
  | _ => exact ⟨rfl, rfl, h⟩

/-- Without faults, a run is that against the catalogs. -/
theorem Calm.run {α : Type} (h : world.Calm) (program : Program α) :
    ((program.run respond world).1, (program.run respond world).2.store) =
        program.run world.view.respond world.store ∧
      (program.run respond world).2.live = world.live ∧ (program.run respond world).2.Calm := by
  induction program generalizing world with
  | done result => exact ⟨rfl, rfl, h⟩
  | ask call next ih =>
    obtain ⟨hreply, hlive, hcalm⟩ := h.respond_eq call
    obtain ⟨hrun, hlive', hcalm'⟩ := ih (respond call world).1 hcalm
    have hview : (respond call world).2.view = world.view := steady call world
    rw [hview] at hrun
    rw [Program.run, Program.run, ← hreply]
    exact ⟨hrun, hlive'.trans hlive, hcalm'⟩

end ShadowCatalog.World
