import ShadowCatalog.Proofs.Browse.Planner
import ShadowCatalog.Proofs.Browse.References
import ShadowCatalog.Proofs.Reconcile.Convergence
import ShadowCatalog.Proofs.Reconcile.Stability

/-!
# Pages that are up to date

A page that is planned after a pass that left no table out is one of the live catalog
(`planBrowse_of_syncPass`). A table that is not live is unknown. Of a live table, the page
shows the live columns, in the order that the pass left, and whatever else the statement
refers to, to show, filter by, sort by or join a label, is a live column of a live table:
so it is of the label that was chosen for a table, even if its column has another name by
now or is gone (`LiveView.HasColumn`, `Statement.OnlyLive`).

This rests on what a *settled* catalog knows. Its rows are the live tables, and the
columns of each row are the live ones, under their names and types
(`ShadowStore.Settled`); planning reads nothing else, apart from the foreign keys, which
are the live ones anyway.
-/

namespace ShadowCatalog

/-! ## What exists -/

/-- There is a live table of a name, with a column of a name. -/
def LiveView.HasColumn (live : LiveView) (table column : String) : Prop :=
  table ∈ live.tables.map (·.name) ∧ column ∈ (live.columns table).map (·.name)

/-- What the foreign keys of live tables refer to exists. -/
def LiveView.KeysHold (live : LiveView) : Prop :=
  ∀ table ∈ live.tables, ∀ key ∈ live.foreignKeys table.name,
    live.HasColumn key.referencedTable key.referencedColumn

instance (live : LiveView) (table column : String) : Decidable (live.HasColumn table column) :=
  inferInstanceAs (Decidable (_ ∧ _))

instance (live : LiveView) : Decidable live.KeysHold :=
  inferInstanceAs (Decidable (∀ _ ∈ _, ∀ _ ∈ _, _))

/-! ## What a settled catalog knows -/

theorem mem_of_labelColumn? {chosen : Option String} {columns : List TrackedColumn}
    {column : TrackedColumn} (h : labelColumn? chosen columns = some column) :
    column ∈ columns := by
  obtain hchosen | ⟨-, hcandidate⟩ := Option.or_eq_some_iff.1 h
  · obtain ⟨_, -, hnamed⟩ := Option.bind_eq_some_iff.1 hchosen
    exact List.mem_of_find?_eq_some hnamed
  · obtain ⟨_, -, hnamed⟩ := List.exists_of_findSome?_eq_some hcandidate
    exact List.mem_of_find?_eq_some hnamed

namespace ShadowStore

variable {policy : OrderPolicy} {live : LiveView} {store : ShadowStore} {row : TrackedTable}
  {column : TrackedColumn} {name : String} {table : LiveTable} {label : Label}

theorem mem_of_tableNamed? (h : store.tableNamed? name = some row) :
    row ∈ store.tables ∧ row.name = name :=
  ⟨List.mem_of_find?_eq_some h, by simpa using List.find?_some h⟩

namespace Settled

/-- A tracked table is live. -/
theorem asLive_mem (h : store.Settled policy live) (hrow : row ∈ store.tables) :
    row.asLive ∈ live.tables :=
  h.registry.mem_asLive_iff.1 (List.mem_map_of_mem hrow)

/-- A name that is not live is not tracked. -/
theorem tableNamed?_eq_none (h : store.Settled policy live)
    (hname : name ∉ live.tables.map (·.name)) : store.tableNamed? name = none := by
  cases htracked : store.tableNamed? name with
  | none => rfl
  | some row =>
    obtain ⟨hrow, rfl⟩ := mem_of_tableNamed? htracked
    exact absurd (List.mem_map_of_mem (h.asLive_mem hrow)) hname

/-- A live table is tracked, and found under its name. -/
theorem exists_tableNamed? (h : store.Settled policy live)
    (hnames : live.tables.Pairwise (·.name ≠ ·.name)) (htable : table ∈ live.tables) :
    ∃ row ∈ store.tables, row.asLive = table ∧ store.tableNamed? table.name = some row := by
  cases htracked : store.tableNamed? table.name with
  | none =>
    obtain ⟨row, hrow, rfl⟩ := List.mem_map.1 (h.registry.mem_asLive_iff.2 htable)
    exact absurd (decide_eq_true rfl) (List.find?_eq_none.1 htracked row hrow)
  | some row =>
    obtain ⟨hrow, hname⟩ := mem_of_tableNamed? htracked
    have hsame : row.asLive = table :=
      List.inj_on_of_nodup_map (List.pairwise_map.2 hnames) (h.asLive_mem hrow) htable hname
    exact ⟨row, hrow, hsame, rfl⟩

/-- A tracked column is live, under its name. -/
theorem hasColumn (h : store.Settled policy live) (hrow : row ∈ store.tables)
    (hcolumn : column ∈ store.columnsOf row.tableId) : live.HasColumn row.name column.name := by
  refine ⟨List.mem_map_of_mem (h.asLive_mem hrow), ?_⟩
  have hdescribed := (h.columns row hrow).described.subset (List.mem_map_of_mem hcolumn)
  obtain ⟨other, hother, heq⟩ := List.mem_map.1 hdescribed
  exact List.mem_map.2 ⟨other, hother, congrArg (·.2.1) heq⟩

/-- The label of a table is a live column of it, whichever was chosen. -/
theorem hasColumn_label (h : store.Settled policy live)
    (hlabel : store.labelOf? name = some label) : live.HasColumn name label.name := by
  obtain ⟨row, htracked, hlabel⟩ := Option.bind_eq_some_iff.1 hlabel
  obtain ⟨column, hcolumn, rfl⟩ := Option.map_eq_some_iff.1 hlabel
  obtain ⟨hrow, rfl⟩ := mem_of_tableNamed? htracked
  exact h.hasColumn hrow (mem_of_labelColumn? hcolumn)

/-- Foreign keys to what exists reach the labels that they are given. -/
theorem reaches_of_mem_labelled (h : store.Settled policy live) {keys : List ForeignKey}
    (hkeys : ∀ key ∈ keys, live.HasColumn key.referencedTable key.referencedColumn) :
    ∀ key ∈ store.labelled keys, key.Reaches live.HasColumn := by
  intro key hkey label hlabel
  obtain ⟨original, horiginal, rfl⟩ := List.mem_map.1 hkey
  exact ⟨hkeys original horiginal, h.hasColumn_label hlabel⟩

/-- The columns of a tracked table are shown in its display order, each of them once. -/
theorem ordered (h : store.Settled policy live) (hpolicy : policy.ListsEach)
    (hkeyed : store.WellKeyed) (hrow : row ∈ store.tables) :
    (store.ordered policy row).Perm (store.columnsOf row.tableId) ∧
      (store.ordered policy row).map (·.columnId) = row.displayOrder := by
  have hcolumns := h.columns row hrow
  have hnodup := hkeyed.columnsOf_nodup row.tableId
  have hids : IdSet.ofList ((store.columnsOf row.tableId).map (·.columnId)) = row.columnIds :=
    IdSet.ext fun id => by rw [IdSet.mem_ofList, List.mem_map, hcolumns.columnIds]
  have hlisted : row.displayOrder.Perm ((store.columnsOf row.tableId).map (·.columnId)) := by
    have hset : row.columnIds.toList.Perm ((store.columnsOf row.tableId).map (·.columnId)) := by
      refine (List.perm_ext_iff_of_nodup row.columnIds.nodup_toList hnodup).2 fun id => ?_
      rw [IdSet.mem_toList, hcolumns.columnIds, List.mem_map]
    have hmerged := hpolicy row.displayOrder row.columnIds
    rw [hcolumns.displayOrder] at hmerged
    exact hmerged.trans hset
  rw [ShadowStore.ordered, hids, hcolumns.displayOrder]
  exact (takeColumns_perm hnodup hlisted).symm

end Settled

end ShadowStore

/-! ## Statements about what is live -/

/-- A statement about what is live: each of its names stands for one live table, what it
    refers to are live columns of these, and there are no other names in it. -/
structure Statement.OnlyLive (live : LiveView) (statement : Statement) : Prop where
  distinct : (statement.plan.tables.map (·.1)).Nodup
  tables : ∀ name ∈ statement.plan.tables.map (·.2), name ∈ live.tables.map (·.name)
  columns : ∀ ref ∈ statement.refs, statement.plan.Means live.HasColumn ref
  names : ∀ name ∈ statement.sql.names, statement.plan.Accounts statement.refs name

/-- A page of a live table. What is shown of the table are its live columns, in the
    display order that is stored, and as text if their type is not read as it is; and
    whatever else the statement is about is live as well. -/
structure BrowseQuery.UpToDate (live : LiveView) (store : ShadowStore) (table : LiveTable)
    (query : BrowseQuery) : Prop where
  plan : query.statement.plan.table = table.name
  columns : ∃ row ∈ store.tables, row.asLive = table ∧
    ∃ columns : List TrackedColumn, columns.Perm (store.columnsOf row.tableId) ∧
      columns.map (·.columnId) = row.displayOrder ∧
      (columns.map (·.description)).Perm ((live.columns table.name).map (·.description)) ∧
      (query.statement.plan.selected.filter (·.ref.qualifier = table.name)).map Selected.sql =
        columns.map fun column =>
          [.name table.name, .fixed ".", .name column.name] ++
            (if isNative column.dataType then [] else [.fixed "::text"]) ++
            [.fixed " AS ", .name column.name]
  onlyLive : query.statement.OnlyLive live

/-- What a request on a live table comes to. -/
inductive Browsed (live : LiveView) (store : ShadowStore) (table : LiveTable)
    (request : BrowseRequest) : Except Error BrowseQuery → Prop
  | negativeOffset : request.offset < 0 →
      Browsed live store table request
        (.error (.validation (.invalidValue "offset" "must not be negative")))
  | unknownSortColumn {name : String} : request.sortColumn = some name →
      ¬live.HasColumn table.name name →
      Browsed live store table request (.error (.validation (.unknownSortColumn table.name name)))
  | query {query : BrowseQuery} : query.UpToDate live store table →
      Browsed live store table request (.ok query)

namespace BrowseQuery

variable {request : BrowseRequest} {columns : List TrackedColumn} {foreignKeys : List ForeignKey}
  {pageSize : Int} {query : BrowseQuery} {cause : ValidationError}

/-- What a request with known columns and foreign keys can fail of. -/
theorem of_compile_eq_error
    (h : compile request columns foreignKeys pageSize = .error cause) :
    request.offset < 0 ∧ cause = .invalidValue "offset" "must not be negative" ∨
      ∃ name, request.sortColumn = some name ∧
        (JoinPlan.ofColumns request.table columns foreignKeys).resolve? name = none ∧
        cause = .unknownSortColumn request.table name := by
  rw [compile, BrowseRequest.checkOffset] at h
  split at h
  · next hoffset =>
    refine .inl ⟨hoffset, ?_⟩
    exact (Except.error.inj h).symm
  · refine .inr ?_
    cases hcolumn : request.sortColumn with
    | none => simp [sort, hcolumn, bind, Except.bind, pure, Except.pure] at h
    | some name =>
      cases hresolve : (JoinPlan.ofColumns request.table columns foreignKeys).resolve? name with
      | none =>
        refine ⟨name, rfl, hresolve, ?_⟩
        simp only [sort, hcolumn, hresolve, bind, Except.bind, Except.error.injEq] at h
        exact h.symm
      | some ref => simp [sort, hcolumn, hresolve, bind, Except.bind, pure, Except.pure] at h

end BrowseQuery

/-! ## Planning from a settled catalog -/

section

variable {live : LiveView} {store : ShadowStore} {policy : OrderPolicy} {row : TrackedTable}
  {request : BrowseRequest} {pageSize : Int}

/-- A statement for columns and foreign keys that are live is about what is live. -/
theorem Statement.onlyLive {columns : List TrackedColumn} {foreignKeys : List ForeignKey}
    {query : BrowseQuery}
    (hquery : BrowseQuery.compile request columns foreignKeys pageSize = .ok query)
    (htable : request.table ∈ live.tables.map (·.name))
    (hcolumns : ∀ column ∈ columns, live.HasColumn request.table column.name)
    (hkeys : ∀ key ∈ foreignKeys, key.Reaches live.HasColumn) :
    query.statement.OnlyLive live := by
  have hplan := (BrowseQuery.statement_of_compile hquery).1
  refine ⟨?_, fun name hname => ?_, fun ref href => ?_,
    fun name hname => BrowseQuery.accounts_of_mem_names hquery hname⟩
  · rw [hplan]
    exact JoinPlan.nodup_tables
  · rw [hplan, JoinPlan.tables, List.map_cons, List.mem_cons] at hname
    rcases hname with rfl | hname
    · exact htable
    · rw [List.map_map, List.mem_map] at hname
      obtain ⟨join, hjoin, rfl⟩ := hname
      obtain ⟨planned, hplanned, hjoin⟩ := List.mem_filterMap.1 hjoin
      have hlabelled := (JoinPlan.labelledBy_of_mem_columns hplanned hjoin).1
      exact (hkeys _ hlabelled.foreignKey _ hlabelled.label).1.1
  · have hmem := BrowseQuery.refs_subset hquery href
    rw [hplan] at hmem ⊢
    exact JoinPlan.means_of_mem_refs hcolumns hkeys hmem

/-- In a settled catalog, a request on a live table comes to an error of the request
    itself, or to a page that is up to date. -/
theorem ShadowStore.Settled.browsed {foreignKeys : List ForeignKey}
    (h : store.Settled policy live) (hpolicy : policy.ListsEach) (hkeyed : store.WellKeyed)
    (hrow : row ∈ store.tables) (hname : row.name = request.table)
    (hkeys : ∀ key ∈ foreignKeys, key.Reaches live.HasColumn) :
    Browsed live store row.asLive request
      ((BrowseQuery.compile request (store.ordered policy row) foreignKeys pageSize).mapError
        .validation) := by
  obtain ⟨hperm, horder⟩ := h.ordered hpolicy hkeyed hrow
  have hlive := h.asLive_mem hrow
  have hdescribed := (hperm.map (·.description)).trans (h.columns row hrow).described
  cases hcompile : BrowseQuery.compile request (store.ordered policy row) foreignKeys pageSize with
  | error cause =>
    obtain ⟨hoffset, rfl⟩ | ⟨name, hsort, hnone, rfl⟩ := BrowseQuery.of_compile_eq_error hcompile
    · exact .negativeOffset hoffset
    · rw [← hname]
      refine .unknownSortColumn hsort fun hcolumn => ?_
      -- A live column is one of those that are shown, and its name stands for it.
      obtain ⟨other, hother, rfl⟩ := List.mem_map.1 hcolumn.2
      obtain ⟨column, hcolumn, heq⟩ :=
        List.mem_map.1 (hdescribed.symm.subset (List.mem_map_of_mem hother))
      have hsame : column.name = other.name := congrArg (·.2.1) heq
      rw [← hsame] at hnone
      exact JoinPlan.resolve?_ne_none hcolumn hnone
  | ok query =>
    have hplan := (BrowseQuery.statement_of_compile hcompile).1
    refine .query ⟨?_, ⟨row, hrow, rfl, _, hperm, horder, hdescribed, ?_⟩, ?_⟩
    · rw [hplan]
      exact hname.symm
    · rw [hplan, ← hname, TrackedTable.asLive, JoinPlan.filter_selected, List.map_map]
      rfl
    · refine Statement.onlyLive hcompile (hname ▸ List.mem_map_of_mem hlive) ?_ hkeys
      exact fun column hcolumn => hname ▸ h.hasColumn hrow (hperm.subset hcolumn)

end

/-! ## Planning after a pass -/

section

variable {σ : Type} {responder : Responder σ} {state later : σ} {report : SyncReport}

/-- A pass that leaves no table out settles the catalog. -/
theorem settled_syncPass {policy : OrderPolicy} (b : Backing responder) (hsteady : b.Steady)
    (hpolicy : policy.Stable) (hkeyed : (b.store state).WellKeyed)
    (hsync : (syncPass policy).perform responder state = (.ok report, later))
    (hskipped : report.tablesSkipped = []) :
    b.live later = b.live state ∧ (b.store later).WellKeyed ∧
      (b.store later).Settled policy (b.live state) := by
  obtain ⟨-, hpassage⟩ := passage_syncPass hsteady hkeyed hsync hskipped
  rw [hpassage.store_eq]
  exact ⟨hpassage.live_eq hsteady, hkeyed.applyAll _, settled_applyAll_passPlan hpolicy _ hkeyed⟩

/-- After a pass that left no table out, and while calls do not fail, a name that is not
    live is answered as unknown, and a request on a live table comes to an error of the
    request itself, or to a page that is up to date. Nothing is asked of the physical ids:
    it is so even of a table that is tracked twice. -/
theorem planBrowse_of_syncPass (b : Backing responder) (hsteady : b.Steady)
    (hreach : (b.store state).Reachable)
    (hnames : (b.live state).tables.Pairwise (·.name ≠ ·.name)) (hkeys : (b.live state).KeysHold)
    (hsync : (syncPass DisplayOrder.merge).perform responder state = (.ok report, later))
    (hskipped : report.tablesSkipped = []) (request : BrowseRequest) (pageSize : Int)
    (hunfailing : Unfailing responder
      ((planBrowse DisplayOrder.merge request pageSize).course responder later)) :
    let outcome := ((planBrowse DisplayOrder.merge request pageSize).perform responder later).1
    (request.table ∉ (b.live state).tables.map (·.name) →
        outcome = .error (.validation (.unknownTable request.table))) ∧
      ∀ table ∈ (b.live state).tables, table.name = request.table →
        Browsed (b.live state) (b.store later) table request outcome := by
  obtain ⟨hlive, hkeyed, hsettled⟩ :=
    settled_syncPass b hsteady DisplayOrder.merge_stable hreach.wellKeyed hsync hskipped
  -- The page is planned as by catalogs that answer every call.
  have hrun := (b.run_of_unfailing hsteady _ hunfailing).1
  have hplan := congrArg Prod.fst
    ((perform_planBrowse (b.live later) (b.store later) _ request pageSize).symm.trans hrun)
  rw [hlive] at hplan
  refine ⟨fun hname => ?_, fun table htable hname => ?_⟩
  · rw [hsettled.tableNamed?_eq_none hname] at hplan
    exact hplan.symm
  · obtain ⟨row, hrow, rfl, htracked⟩ := hsettled.exists_tableNamed? hnames htable
    rw [← hname, htracked] at hplan
    exact hplan ▸ hsettled.browsed DisplayOrder.merge_listsEach hkeyed hrow hname
      (hsettled.reaches_of_mem_labelled (hkeys _ htable))

/-- Customers that were tracked under another name and are labelled by a column that has
    got another name since, and orders that were made again, with other columns. -/
def renovated : World where
  live.entries := [
    ⟨⟨1, "customers"⟩, [⟨1, "id", "integer", false, none, true, none⟩,
      ⟨2, "name", "text", true, none, false, none⟩]⟩,
    ⟨⟨7, "orders"⟩, [⟨1, "id", "integer", false, none, true, none⟩,
      ⟨2, "total", "money", true, none, false, none⟩,
      ⟨4, "customer_id", "integer", true, none, false, none⟩]⟩]
  live.foreignKeys := [⟨"orders", "customer_id", "customers", "id", none⟩]
  store := ShadowStore.applyAll {} [
    .insertTable "people" 1, .insertTable "orders" 2, .insertTable "parcels" 3,
    .insertColumn 1 ⟨1, "id", "integer", false, none, true, none⟩,
    .insertColumn 1 ⟨2, "nick", "text", true, none, false, none⟩,
    .setLabelColumn 1 (some "nick"),
    .insertColumn 2 ⟨1, "id", "text", true, none, false, none⟩,
    .insertColumn 2 ⟨3, "person_id", "integer", true, none, false, none⟩,
    .insertColumn 2 ⟨4, "customer_id", "integer", true, none, false, none⟩,
    .saveLayout 2 (.ofList [3, 4, 5]) [5, 4, 3]]

/-- What a pass makes of it: the label is chosen as before, by a name that is gone. -/
def renewed : ShadowStore where
  tables := [⟨1, "customers", 1, .ofList [1, 2], [1, 2], some "nick"⟩,
    ⟨2, "orders", 7, .ofList [3, 5, 6], [5, 3, 6], none⟩]
  columns := [⟨1, 1, 1, "id", "integer"⟩, ⟨2, 1, 2, "name", "text"⟩, ⟨3, 2, 1, "id", "integer"⟩,
    ⟨5, 2, 4, "customer_id", "integer"⟩, ⟨6, 2, 2, "total", "money"⟩]
  lastTableId := 3
  lastColumnId := 6
  writes := 19

theorem planBrowse_of_syncPass_renovated :
    let page := fun request => ((planBrowse DisplayOrder.merge request 50).perform
      renovated.view.respond renewed).1
    let labelled : BrowseRequest := { table := "orders", filters := [("customer_name", "Ann")] }
    (syncPass DisplayOrder.merge).perform renovated.view.respond renovated.store =
        (.ok ⟨1, 1, 1, 0, 1, 2, 1, 2, []⟩, renewed) ∧
      page { table := "people" } = .error (.validation (.unknownTable "people")) ∧
      Browsed renovated.view renewed ⟨7, "orders"⟩ labelled (page labelled) ∧
      (page labelled).toOption.map (·.statement.refs) =
        some [⟨"orders", "customer_id"⟩, ⟨"customers", "name"⟩, ⟨"orders", "id"⟩,
          ⟨"orders", "total"⟩, ⟨"orders", "customer_id"⟩, ⟨"customers", "id"⟩,
          ⟨"customers", "name"⟩] := by
  intro page labelled
  have hreach : renovated.store.Reachable := ShadowStore.Reachable.empty.applyAll _
  have hsync : (syncPass DisplayOrder.merge).perform renovated.view.respond renovated.store =
      (.ok ⟨1, 1, 1, 0, 1, 2, 1, 2, []⟩, renewed) := by
    cbv
  have hpages := planBrowse_of_syncPass renovated.view.backing (fun _ _ => rfl) hreach
    (by decide : renovated.view.tables.Pairwise (·.name ≠ ·.name))
    (of_decide_eq_true (by cbv) : renovated.view.KeysHold) hsync rfl
  refine ⟨hsync, ?_, ?_, by decide +kernel⟩
  · exact (hpages { table := "people" } 50 (unfailing_of_all (by decide +kernel))).1 (by decide)
  · exact (hpages labelled 50 (unfailing_of_all (by decide +kernel))).2 ⟨7, "orders"⟩
      (by decide) rfl

end

end ShadowCatalog
