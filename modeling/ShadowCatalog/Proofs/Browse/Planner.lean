import Mathlib.Data.List.Nodup
import Mathlib.Data.List.Perm.Subperm
import Mathlib.Tactic.Common
import ShadowCatalog.Browse.Planner
import ShadowCatalog.Proofs.Catalog.Backing

/-!
# What is planned

Where the catalogs answer every call, planning a page comes to compiling the request for
the columns of the table in display order and for its foreign keys with their labels, or
to an error if no table of the name is tracked (`perform_planBrowse`). Nothing is left of
the order of the calls, nor of what is remembered between them: that a table is looked up
once, for all keys that refer to it, makes no difference as each lookup would find the
same (`perform_labelForeignKeys`).

Columns are put into an order by their ids. An order that lists each of them once leaves
none out and repeats none (`takeColumns_perm`).
-/

namespace ShadowCatalog

/-! ## Columns by their ids -/

/-- An order without repetitions of ids that columns have is followed exactly. -/
theorem takeColumns_spec {columns : List TrackedColumn} {ids : List ColumnId}
    (hcolumns : columns.Pairwise (·.columnId ≠ ·.columnId)) (hids : ids.Nodup)
    (hsubset : ids ⊆ columns.map (·.columnId)) :
    (takeColumns columns ids).map (·.columnId) = ids ∧ takeColumns columns ids ⊆ columns := by
  induction ids generalizing columns with
  | nil => exact ⟨rfl, List.nil_subset _⟩
  | cons id ids ih =>
    rw [List.nodup_cons] at hids
    rw [List.cons_subset] at hsubset
    obtain ⟨column, hcolumn, rfl⟩ := List.mem_map.1 hsubset.1
    have hreverse : columns.reverse.Pairwise (·.columnId ≠ ·.columnId) :=
      List.pairwise_reverse.2 (hcolumns.imp Ne.symm)
    have hfind : columns.reverse.find? (·.columnId = column.columnId) = some column :=
      (find?_key_eq_some_iff TrackedColumn.columnId hreverse).2
        ⟨List.mem_reverse.2 hcolumn, rfl⟩
    -- The columns of the other ids are still there when this one is taken out.
    obtain ⟨hlater, hfrom⟩ := ih (hcolumns.filter fun other => other.columnId ≠ column.columnId)
      hids.2 (by
        intro id hid
        obtain ⟨other, hother, rfl⟩ := List.mem_map.1 (hsubset.2 hid)
        refine List.mem_map_of_mem (List.mem_filter.2 ⟨hother, decide_eq_true fun heq => ?_⟩)
        exact hids.1 (heq ▸ hid))
    rw [takeColumns, hfind]
    refine ⟨congrArg (column.columnId :: ·) hlater, List.cons_subset.2 ⟨hcolumn, ?_⟩⟩
    exact List.Subset.trans hfrom (List.filter_subset_self _)

/-- An order that lists each column once takes each column once. -/
theorem takeColumns_perm {columns : List TrackedColumn} {ids : List ColumnId}
    (hcolumns : (columns.map (·.columnId)).Nodup) (hids : ids.Perm (columns.map (·.columnId))) :
    (takeColumns columns ids).map (·.columnId) = ids ∧ (takeColumns columns ids).Perm columns := by
  have hnodup : ids.Nodup := hids.nodup_iff.2 hcolumns
  obtain ⟨horder, hsubset⟩ := takeColumns_spec (List.pairwise_map.1 hcolumns) hnodup hids.subset
  refine ⟨horder, ?_⟩
  have htaken : (takeColumns columns ids).Nodup := List.Nodup.of_map _ (horder ▸ hnodup)
  have hlength : (takeColumns columns ids).length = columns.length := by
    simpa using (congrArg List.length horder).trans hids.length_eq
  exact (htaken.subperm hsubset).perm_of_length_le (Nat.le_of_eq hlength.symm)

/-! ## Labels -/

namespace ShadowStore

variable (store : ShadowStore)

/-- The label of the table of a name, if it is tracked and has one. -/
def labelOf? (name : String) : Option Label :=
  (store.tableNamed? name).bind fun row =>
    (labelColumn? row.labelColumn (store.columnsOf row.tableId)).map TrackedColumn.label

/-- Foreign keys with the labels of the tables that they refer to. -/
def labelled (keys : List ForeignKey) : List ForeignKey :=
  keys.map fun key => { key with label := store.labelOf? key.referencedTable }

end ShadowStore

section

open CatalogTask

variable (live : LiveView) (store : ShadowStore)

theorem perform_tableLabel (name : String) :
    (tableLabel name).perform live.respond store = (.ok (store.labelOf? name), store) := by
  rw [tableLabel, perform_bind, perform_ask]
  simp only [LiveView.respond, ShadowStore.labelOf?]
  cases store.tableNamed? name with
  | none => rfl
  | some row => rfl

/-- What is remembered is what would be found. -/
theorem perform_labelForeignKeys {known : List (String × Option Label)}
    (hknown : ∀ entry ∈ known, entry.2 = store.labelOf? entry.1) (keys : List ForeignKey) :
    (labelForeignKeys known keys).perform live.respond store =
      (.ok (store.labelled keys), store) := by
  induction keys generalizing known with
  | nil => rfl
  | cons key keys ih =>
    have hothers : perform
        (do
          let others ← labelForeignKeys
            ((key.referencedTable, store.labelOf? key.referencedTable) :: known) keys
          return { key with label := store.labelOf? key.referencedTable } :: others)
        live.respond store = (.ok (store.labelled (key :: keys)), store) := by
      rw [perform_bind, ih (List.forall_mem_cons.2 ⟨rfl, hknown⟩)]
      rfl
    rw [labelForeignKeys]
    cases hfind : known.find? (·.1 = key.referencedTable) with
    | none =>
      dsimp only
      rw [perform_bind, perform_tableLabel]
      exact hothers
    | some entry =>
      have hname : entry.1 = key.referencedTable := by simpa using List.find?_some hfind
      have hlabel := hknown entry (List.mem_of_find?_eq_some hfind)
      rw [hname] at hlabel
      dsimp only
      rw [hlabel, perform_bind, perform_pure]
      exact hothers

theorem perform_resolveForeignKeys (table : String) :
    (resolveForeignKeys table).perform live.respond store =
      (.ok (store.labelled (live.foreignKeys table)), store) := by
  rw [resolveForeignKeys, perform_bind, perform_ask]
  exact perform_labelForeignKeys live store (fun _ hentry => absurd hentry List.not_mem_nil) _

/-! ## Pages -/

/-- The columns of a tracked table, in display order. -/
def ShadowStore.ordered (policy : OrderPolicy) (row : TrackedTable) : List TrackedColumn :=
  let columns := store.columnsOf row.tableId
  takeColumns columns (policy row.displayOrder (.ofList (columns.map (·.columnId))))

theorem perform_orderedColumns (policy : OrderPolicy) (row : TrackedTable) :
    (orderedColumns policy row).perform live.respond store =
      (.ok (store.ordered policy row), store) := by
  rw [orderedColumns, perform_bind, perform_ask]
  rfl

/-- A page of a table that is not tracked is an error; one of a table that is tracked
    comes to compiling the request. -/
theorem perform_planBrowse (policy : OrderPolicy) (request : BrowseRequest) (pageSize : Int) :
    (planBrowse policy request pageSize).perform live.respond store =
      (match store.tableNamed? request.table with
        | none => .error (.validation (.unknownTable request.table))
        | some row =>
          (BrowseQuery.compile request (store.ordered policy row)
            (store.labelled (live.foreignKeys row.name)) pageSize).mapError .validation,
        store) := by
  rw [planBrowse, trackedTable, perform_bind, perform_bind, perform_ask]
  simp only [LiveView.respond]
  cases store.tableNamed? request.table with
  | none => rfl
  | some row =>
    simp only [perform_pure, perform_bind, perform_orderedColumns, perform_resolveForeignKeys]
    cases BrowseQuery.compile request (store.ordered policy row)
      (store.labelled (live.foreignKeys row.name)) pageSize with
    | ok query => rfl
    | error cause => rfl

end

end ShadowCatalog
