import Mathlib.Data.List.Pairwise
import ShadowCatalog.Proofs.Memory.World
import ShadowCatalog.Proofs.Reconcile.Pass
import ShadowCatalog.Proofs.Reconcile.Succession

/-!
# Convergence

A registry has *converged* to live tables if each of them has one row, under its name
and its physical id, and there is no other row (`Registry.Converged`). After a pass it
has converged exactly if no live table was *tracked twice* before, that is, if no two
rows held one physical id that is live (`syncPass_converged_iff`). Rows that repeat a
name, or a physical id that is not live, do not matter: one of them goes on, or none.

Two rows of a live physical id both go on as that table, and no pass ever merges them
(`not_converged_doubled`). The columns, by contrast, are merged: of several rows at one
position a pass leaves one.

The part of a pass that reconciles columns leaves the registry as it is
(`map_identity_reconcileEach`), whichever calls fail in it.
-/

namespace ShadowCatalog

variable {σ : Type} {responder : Responder σ} {state later : σ} {policy : OrderPolicy}
  {report : SyncReport} {tables : List TrackedTable}

/-- The live table that a row is taken for. -/
def TrackedTable.asLive (row : TrackedTable) : LiveTable := ⟨row.physicalId, row.name⟩

namespace Registry

variable {live : List LiveTable} {rows : List TrackedTable}

/-- The rows are the live tables, one row for each of them. -/
def Converged (live : List LiveTable) (rows : List TrackedTable) : Prop :=
  (rows.map (·.asLive)).Perm live

/-- No two rows hold one physical id that is live. -/
def TracksOnce (live : List LiveTable) (rows : List TrackedTable) : Prop :=
  rows.Pairwise fun row other =>
    row.physicalId = other.physicalId → ∀ table ∈ live, table.physicalId ≠ row.physicalId

instance (live : List LiveTable) (rows : List TrackedTable) : Decidable (Converged live rows) :=
  inferInstanceAs (Decidable (List.Perm _ _))

instance (live : List LiveTable) (rows : List TrackedTable) : Decidable (TracksOnce live rows) :=
  inferInstanceAs (Decidable (List.Pairwise _ _))

theorem sameTable_iff_asLive {row : TrackedTable} {table : LiveTable} :
    sameTable row table = true ↔ row.asLive = table := by
  obtain ⟨physicalId, name⟩ := table
  rw [sameTable_iff, TrackedTable.asLive, LiveTable.mk.injEq]
  exact ⟨fun h => ⟨h.2.symm, h.1.symm⟩, fun h => ⟨h.2.symm, h.1.symm⟩⟩

/-- The rows of a settled registry are just the live tables, however often. -/
theorem Settled.mem_asLive_iff (h : Settled live rows) {table : LiveTable} :
    table ∈ rows.map (·.asLive) ↔ table ∈ live := by
  rw [List.mem_map]
  constructor
  · rintro ⟨row, hrow, rfl⟩
    obtain ⟨other, hother, hsame⟩ := List.any_eq_true.1 (h.isLive row hrow)
    rwa [sameTable_iff_asLive.1 hsame]
  · intro htable
    obtain ⟨row, hrow, hsame⟩ := List.any_eq_true.1 (h.tracked table htable)
    exact ⟨row, hrow, sameTable_iff_asLive.1 hsame⟩

/-- A settled registry has converged if its rows differ in their physical ids. -/
theorem Settled.converged_iff (h : Settled live rows)
    (hids : live.Pairwise (·.physicalId ≠ ·.physicalId)) :
    Converged live rows ↔ rows.Pairwise (·.physicalId ≠ ·.physicalId) := by
  constructor
  · intro hconverged
    have hpairwise := hconverged.symm.pairwise hids fun hne heq => hne heq.symm
    exact (List.pairwise_map (f := TrackedTable.asLive)).1 hpairwise
  · intro hrows
    have hlive : live.Nodup := List.Nodup.of_map _ (List.pairwise_map.2 hids)
    have hnodup : (rows.map (·.asLive)).Nodup :=
      List.pairwise_map.2 (hrows.imp fun hne heq => hne (congrArg LiveTable.physicalId heq))
    exact (List.perm_ext_iff_of_nodup hnodup hlive).2 fun table => h.mem_asLive_iff

theorem TracksOnce.not_live (h : TracksOnce live rows) {row other : TrackedTable}
    (hrow : row ∈ rows) (hother : other ∈ rows) (hne : row ≠ other)
    (hid : row.physicalId = other.physicalId) :
    ∀ table ∈ live, table.physicalId ≠ row.physicalId := by
  have hsymm : Std.Symm fun row other : TrackedTable =>
      row.physicalId = other.physicalId → ∀ table ∈ live, table.physicalId ≠ row.physicalId :=
    ⟨fun _ _ hdead heq table htable => heq ▸ hdead heq.symm table htable⟩
  exact List.Pairwise.forall h hrow hother hne hid

/-- Where no live table is tracked twice, no two rows go on as the same table. -/
theorem TracksOnce.tableId_eq (h : TracksOnce live rows) {row other : TrackedTable}
    (hrow : row ∈ rows) (hother : other ∈ rows) {table : LiveTable}
    (hgoes : GoesOnAs live rows row table) (hgoes' : GoesOnAs live rows other table) :
    row.tableId = other.tableId := by
  rcases hgoes.2 with hid | ⟨hdead, hname, hfree, hfirst⟩
  · rcases hgoes'.2 with hid' | ⟨_, _, hfree', _⟩
    -- Both rows hold the physical id of the table.
    · by_contra hne
      exact h.not_live hrow hother (fun heq => hne (congrArg _ heq)) (hid.symm.trans hid')
        table hgoes.1 hid
    · exact absurd hid.symm (hfree' row hrow)
  · rcases hgoes'.2 with hid' | ⟨hdead', hname', _, hfirst'⟩
    · exact absurd hid'.symm (hfree other hother)
    -- Both rows are the first that was tracked under the name of the table.
    · exact Int.le_antisymm (hfirst other hother hdead' (hname'.symm.trans hname))
        (hfirst' row hrow hdead (hname.symm.trans hname'))

/-- Where no live table is tracked twice, the survivors differ in their physical
    ids. -/
theorem TracksOnce.pairwise_survivors (h : TracksOnce live rows)
    (hids : live.Pairwise (·.physicalId ≠ ·.physicalId))
    (hsorted : (survivors live rows).Pairwise fun a b => a.tableId < b.tableId) :
    (survivors live rows).Pairwise (·.physicalId ≠ ·.physicalId) := by
  refine hsorted.imp_of_mem ?_
  intro a b ha hb hlt heq
  obtain ⟨row, hrow, table, hgoes, rfl⟩ := exists_goesOnAs_of_mem_survivors ha
  obtain ⟨other, hother, table', hgoes', rfl⟩ := exists_goesOnAs_of_mem_survivors hb
  have hsame : table = table' :=
    List.inj_on_of_nodup_map (List.pairwise_map.2 hids) hgoes.1 hgoes'.1 heq
  have hid : row.tableId = other.tableId := h.tableId_eq hrow hother hgoes (hsame ▸ hgoes')
  exact Int.ne_of_lt hlt hid

theorem map_asLive_freshRows (last : TableId) (tables : List LiveTable) :
    (freshRows last tables).map (·.asLive) = tables := by
  induction tables generalizing last with
  | nil => rfl
  | cons table tables ih => exact congrArg (table :: ·) (ih (last + 1))

/-- The steps of the registry bring it to converge exactly if no live table was tracked
    twice. -/
theorem converged_applyAll_plan_iff {store : ShadowStore} (h : store.WellKeyed)
    (hids : live.Pairwise (·.physicalId ≠ ·.physicalId))
    (hnames : live.Pairwise (·.name ≠ ·.name)) :
    Converged live (store.applyAll (plan live store)).tables ↔ TracksOnce live store.tables := by
  have hsuccession := succession_applyAll_plan h hids hnames
  have hsorted := (h.applyAll (plan live store)).tables
  rw [(settled_applyAll_plan h).converged_iff hids]
  constructor
  · intro hrows
    refine h.tables.imp_of_mem ?_
    intro row other hrow hother hlt heq table htable hid
    -- Both rows would be kept as the live table of the physical id that they hold.
    have hkept := hsuccession.renamed row hrow table htable hid
    have hkept' := hsuccession.renamed other hother table htable (hid.trans heq)
    have hsame := List.inj_on_of_nodup_map (List.pairwise_map.2 hrows) hkept hkept' heq
    have hid' := congrArg TrackedTable.tableId hsame
    exact Int.ne_of_lt hlt hid'
  · intro honce
    rw [hsuccession.tables] at hsorted ⊢
    rw [List.pairwise_append]
    refine ⟨honce.pairwise_survivors hids (List.pairwise_append.1 hsorted).1, ?_, ?_⟩
    · have hnew : (newcomers live store.tables).Pairwise (·.physicalId ≠ ·.physicalId) :=
        hids.filter _
      rw [← map_asLive_freshRows store.lastTableId (newcomers live store.tables)] at hnew
      exact (List.pairwise_map (f := TrackedTable.asLive)).1 hnew
    · intro row hrow fresh hfresh heq
      obtain ⟨old, hold, table, hgoes, rfl⟩ := exists_goesOnAs_of_mem_survivors hrow
      obtain ⟨_, newcomer, hnewcomer, hfresh⟩ := mem_freshRows hfresh
      rw [newcomers, List.mem_filter, decide_eq_true_iff] at hnewcomer
      rw [hfresh] at heq
      -- A newcomer is a live table as which no row goes on.
      have hsame : table = newcomer :=
        List.inj_on_of_nodup_map (List.pairwise_map.2 hids) hgoes.1 hnewcomer.1 heq
      exact hnewcomer.2 ⟨old, hold, hsame ▸ hgoes⟩

end Registry

/-! ## The pass -/

variable {b : Backing responder}

/-- A pass that ends well has made the plan for the registry, and what it did after that
    has left the registry as it was. -/
theorem map_identity_syncPass (h : (b.store state).WellKeyed)
    (hdone : (syncPass policy).perform responder state = (.ok report, later)) :
    (b.store later).tables.map (·.identity) =
      ((b.store state).applyAll (Registry.plan (b.live state).tables (b.store state))).tables.map
        (·.identity) := by
  rcases follows_opening h {} with ⟨middle, hpassage, hrun⟩ |
    ⟨_, _, _, _, error, _, _, _, _, _, hrun⟩
  · have hlater : later = _ :=
      congrArg Prod.snd (hdone.symm.trans (syncPass_of_opening_ok policy hrun).1)
    rw [hlater, ← hpassage.store_eq]
    exact map_identity_reconcileEach b policy _ _ _
  · rw [(syncPass_of_opening_error policy hrun).1] at hdone
    cases hdone

theorem asLive_of_identity {rows rows' : List TrackedTable}
    (h : rows'.map (·.identity) = rows.map (·.identity)) :
    rows'.map (·.asLive) = rows.map (·.asLive) := by
  have hidentity := congrArg (List.map fun identity => LiveTable.mk identity.2.2 identity.2.1) h
  rwa [List.map_map, List.map_map] at hidentity

/-- After a pass that ends well the registry has converged to the live tables, provided
    that no two rows held one physical id that is live; otherwise it has not. -/
theorem syncPass_converged_iff (b : Backing responder) (hreach : (b.store state).Reachable)
    (hids : (b.live state).tables.Pairwise (·.physicalId ≠ ·.physicalId))
    (hnames : (b.live state).tables.Pairwise (·.name ≠ ·.name))
    (hdone : (syncPass policy).perform responder state = (.ok report, later)) :
    Registry.Converged (b.live state).tables (b.store later).tables ↔
      Registry.TracksOnce (b.live state).tables (b.store state).tables := by
  have hkeyed := hreach.wellKeyed
  rw [Registry.Converged, asLive_of_identity (map_identity_syncPass hkeyed hdone)]
  exact Registry.converged_applyAll_plan_iff hkeyed hids hnames

/-- Leftovers under names and physical ids that are not live any more, and of a live
    table one row that goes by another name. -/
def littered : World where
  live.entries := [⟨⟨1, "a"⟩, []⟩, ⟨⟨7, "b"⟩, [⟨1, "id", "int", false, none, true, none⟩]⟩]
  store := ShadowStore.applyAll {} [
    .insertTable "b" 5, .insertTable "b" 5, .insertTable "b" 6, .insertTable "z" 1]

theorem converged_littered :
    ∃ report later,
      (syncPass DisplayOrder.merge).perform World.respond littered = (.ok report, later) ∧
      Registry.Converged littered.view.tables later.store.tables ∧
      later.store.tables.map (·.identity) = [(1, "b", 7), (4, "a", 1)] := by
  have hreach : (World.backing.store littered).Reachable := ShadowStore.Reachable.empty.applyAll _
  have hdone : ((syncPass DisplayOrder.merge).perform World.respond littered).1 =
      .ok ⟨1, 1, 2, 0, 1, 0, 0, 1, []⟩ := by
    cbv
  refine ⟨_, _, Prod.ext hdone rfl, ?_, by cbv⟩
  exact (syncPass_converged_iff World.backing hreach (by decide) (by decide)
    (Prod.ext hdone rfl)).2 (by decide)

/-- A live table that is tracked twice, as two passes that overlap may leave it. -/
def doubled : World where
  live.entries := [⟨⟨100, "users"⟩, []⟩]
  store := ShadowStore.applyAll {} [.insertTable "users" 100, .insertTable "users" 100]

/-- A pass ends well and leaves both rows of a table that is tracked twice. -/
theorem not_converged_doubled :
    doubled.store.Reachable ∧
      doubled.view.tables.Pairwise (·.physicalId ≠ ·.physicalId) ∧
      doubled.view.tables.Pairwise (·.name ≠ ·.name) ∧
      ∃ report later,
        (syncPass DisplayOrder.merge).perform World.respond doubled = (.ok report, later) ∧
        later.store.tables.map (·.identity) = [(1, "users", 100), (2, "users", 100)] ∧
        ¬Registry.Converged doubled.view.tables later.store.tables := by
  have hdone : (syncPass DisplayOrder.merge).perform World.respond doubled = (.ok {}, doubled) := by
    cbv
  refine ⟨ShadowStore.Reachable.empty.applyAll _, by decide, by decide, {}, doubled, hdone, by cbv,
    by decide⟩

end ShadowCatalog
