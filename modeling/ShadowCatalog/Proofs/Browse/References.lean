import ShadowCatalog.Proofs.Browse.JoinPlan
import ShadowCatalog.Proofs.Browse.Mentions

/-!
# What a query refers to

A query refers to columns: to show them, to join by them, to filter and to sort by them
(`Statement.refs`). All of them are columns that its plan refers to
(`BrowseQuery.refs_subset`), and there are no names in the statement beyond these, the
tables of the plan and the names under which something is shown
(`BrowseQuery.accounts_of_mem_names`).
-/

namespace ShadowCatalog

/-- All columns that a statement refers to. -/
def Statement.refs (statement : Statement) : List ColumnRef :=
  statement.plan.refs ++ statement.filters.map (·.ref) ++ (statement.sort.map (·.1)).toList

theorem Statement.plan_refs_subset (statement : Statement) :
    statement.plan.refs ⊆ statement.refs :=
  List.Subset.trans (List.subset_append_left _ _) (List.subset_append_left _ _)

/-! ## The names in a plan -/

/-- What a name is, where `refs` are referred to: that of a table of the plan, part of a
    reference, or a name under which something is shown. -/
def JoinPlan.Accounts (plan : JoinPlan) (refs : List ColumnRef) (name : String) : Prop :=
  (∃ table ∈ plan.tables, name = table.1 ∨ name = table.2) ∨
    (∃ ref ∈ refs, name ∈ ref.names) ∨ ∃ selected ∈ plan.selected, name = selected.output

namespace JoinPlan

variable {plan : JoinPlan} {name : String}

theorem Accounts.mono {refs refs' : List ColumnRef} (h : plan.Accounts refs name)
    (hrefs : refs ⊆ refs') : plan.Accounts refs' name :=
  h.imp_right fun h => h.imp_left fun ⟨ref, href, hname⟩ => ⟨ref, hrefs href, hname⟩

theorem accounts_of_mem_names (h : name ∈ plan.names) : plan.Accounts plan.refs name := by
  rw [names, List.mem_append, List.mem_append, List.mem_singleton] at h
  rcases h with (h | rfl) | h
  · obtain ⟨selected, hselected, h⟩ := List.mem_flatMap.1 h
    rcases List.mem_append.1 h with href | houtput
    · exact .inr (.inl ⟨_, List.mem_append_left _ (List.mem_map_of_mem hselected), href⟩)
    · exact .inr (.inr ⟨selected, hselected, List.mem_singleton.1 houtput⟩)
  · exact .inl ⟨_, List.mem_cons_self, .inl rfl⟩
  · obtain ⟨planned, hplanned, h⟩ := List.mem_flatMap.1 h
    obtain ⟨join, hjoin, h⟩ := List.mem_flatMap.1 h
    have htable : (join.qualifier, join.foreignKey.referencedTable) ∈ plan.tables :=
      List.mem_cons_of_mem _ (List.mem_map.2
        ⟨join, List.mem_filterMap.2 ⟨planned, hplanned, Option.mem_toList.1 hjoin⟩, rfl⟩)
    have hrefs : [plan.ref planned.column.name,
        ⟨join.qualifier, join.foreignKey.referencedColumn⟩] ⊆ plan.refs := by
      intro ref href
      exact List.mem_append_right _ (List.mem_flatMap.2
        ⟨planned, hplanned, List.mem_flatMap.2 ⟨join, hjoin, href⟩⟩)
    simp only [LabelJoin.names, List.mem_append, List.mem_cons, List.not_mem_nil, or_false] at h
    rcases h with ((rfl | rfl) | h) | h
    · exact .inl ⟨_, htable, .inr rfl⟩
    · exact .inl ⟨_, htable, .inl rfl⟩
    · exact .inr (.inl ⟨_, hrefs List.mem_cons_self, h⟩)
    · refine .inr (.inl ⟨_, hrefs (List.mem_cons_of_mem _ List.mem_cons_self), ?_⟩)
      simpa [ColumnRef.names] using h

end JoinPlan

/-- A token mentions the column that it is about, and nothing else. -/
theorem SearchToken.names_subset (ref : ColumnRef) (token : SearchToken) :
    token.names ref ⊆ ref.names := by
  cases token with
  | contains term => by_cases h : term = "" <;> simp [names, h]
  | lacks term => by_cases h : term = "" <;> simp [names, h]
  | _ => exact List.nil_subset _

/-! ## The names in a query -/

namespace BrowseQuery

variable {request : BrowseRequest} {columns : List TrackedColumn} {foreignKeys : List ForeignKey}
  {pageSize : Int} {query : BrowseQuery}

/-- Filters are conditions on what their names stand for. -/
theorem ref_of_mem_filters {plan : JoinPlan} {index : Nat} {asked : List (String × String)}
    {filter : Filter} (h : filter ∈ filters plan index asked) :
    ∃ name, plan.resolve? name = some filter.ref := by
  fun_induction filters plan index asked with
  | case1 => cases h
  | case2 index name expression rest hnone ih => exact ih h
  | case3 index name expression rest ref hsome hnone ih => exact ih h
  | case4 index name expression rest ref hsome condition hcondition ih =>
    rcases List.mem_cons.1 h with rfl | h
    · exact ⟨name, hsome⟩
    · exact ih h

/-- A query refers to nothing that its plan does not refer to. -/
theorem refs_subset (h : compile request columns foreignKeys pageSize = .ok query) :
    query.statement.refs ⊆ query.statement.plan.refs := by
  obtain ⟨-, hfilters, hsort⟩ := statement_of_compile h
  refine List.append_subset.2 ⟨List.append_subset.2 ⟨List.Subset.refl _, ?_⟩, ?_⟩
  · intro ref href
    obtain ⟨filter, hfilter, rfl⟩ := List.mem_map.1 href
    rw [hfilters] at hfilter
    obtain ⟨name, hname⟩ := ref_of_mem_filters hfilter
    exact JoinPlan.mem_refs_of_resolve? hname
  · intro ref href
    rw [hsort, Option.mem_toList] at href
    obtain ⟨name, -, hname⟩ := Option.bind_eq_some_iff.1 href
    exact JoinPlan.mem_refs_of_resolve? hname

/-- There are no names in a query but those of its tables, of the columns that it refers to,
    and those under which these are shown. -/
theorem accounts_of_mem_names (h : compile request columns foreignKeys pageSize = .ok query)
    {name : String} (hname : name ∈ query.statement.sql.names) :
    query.statement.plan.Accounts query.statement.refs name := by
  obtain ⟨-, hfilters, hsort⟩ := statement_of_compile h
  rw [Statement.names_sql, List.mem_append, List.mem_append, hfilters,
    (filtersMention _ _ _).names] at hname
  rcases hname with (hname | hname) | hname
  · exact (JoinPlan.accounts_of_mem_names hname).mono query.statement.plan_refs_subset
  · obtain ⟨asked, hasked, hname⟩ := List.mem_flatMap.1 hname
    obtain ⟨token, -, hname⟩ := List.mem_flatMap.1 hname
    obtain ⟨filter, -, hfilter⟩ := List.mem_filterMap.1 hasked
    obtain ⟨ref, href, rfl⟩ := Option.map_eq_some_iff.1 hfilter
    refine .inr (.inl ⟨ref, ?_, SearchToken.names_subset ref token hname⟩)
    exact query.statement.plan_refs_subset (JoinPlan.mem_refs_of_resolve? href)
  · obtain ⟨sorted, hsorted, hname⟩ := List.mem_flatMap.1 hname
    refine .inr (.inl ⟨sorted.1, List.mem_append_right _ ?_, hname⟩)
    rw [Option.mem_toList] at hsorted ⊢
    rw [hsorted]
    rfl

end BrowseQuery

end ShadowCatalog
