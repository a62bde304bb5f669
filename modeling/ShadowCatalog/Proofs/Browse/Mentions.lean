import Mathlib.Data.List.Basic
import ShadowCatalog.Proofs.Browse.Delimited

/-!
# What a browse statement mentions

Names of tables, columns and labels come from the catalogs, and filters from
whoever asks. Neither can say more in a statement than they are meant to: read
back from its text, a compiled statement mentions the names that its plan and
request put there, no literal but the empty one, and its placeholders `$1`,
`$2`, … in order, as many as there are values bound (`BrowseQuery.read_text`).

Every statement is spaced (`Statement.spaced_sql`), so its text can be read back;
what is read is then settled on fragments. What is put there is told without the
fragments (`BrowseRequest.names`, `JoinPlan.termsOf`): token by token for a filter,
filter by filter for a request. The placeholders are counted along the same
recursions, where each condition starts at the first number that is free.
-/

namespace ShadowCatalog

open Sql

/-! ## Names and terms -/

/-- The names by which a column is mentioned. -/
def ColumnRef.names (ref : ColumnRef) : List String := [ref.qualifier, ref.column]

/-- The names by which an output column is mentioned in the select list. -/
def Selected.names (selected : Selected) : List String := selected.ref.names ++ [selected.output]

/-- The names by which a label is reached from the column of its foreign key. -/
def LabelJoin.names (source : ColumnRef) (join : LabelJoin) : List String :=
  [join.foreignKey.referencedTable, join.qualifier] ++ source.names ++
    [join.qualifier, join.foreignKey.referencedColumn]

namespace SearchToken

/-- The term that a token looks for, if it is not empty. -/
def term? : SearchToken → Option String
  | .contains term => if term = "" then none else some term
  | .lacks term => if term = "" then none else some term
  | _ => none

/-- The names by which a token mentions the column it is about. Whether a value
    is missing or empty are two questions. -/
def names (ref : ColumnRef) : SearchToken → List String
  | .contains term => if term = "" then ref.names ++ ref.names else ref.names
  | .lacks term => if term = "" then ref.names ++ ref.names else ref.names
  | _ => []

end SearchToken

/-- What a filter asks for, of the column or label that it stands for. -/
structure Asked where
  ref : ColumnRef
  tokens : List SearchToken
  deriving DecidableEq, Repr

namespace Asked

variable (asked : Asked)

/-- The terms that are looked for, in order. -/
def terms : List String := asked.tokens.filterMap SearchToken.term?

/-- The names by which the column or label is mentioned. -/
def names : List String := asked.tokens.flatMap (SearchToken.names asked.ref)

end Asked

namespace JoinPlan

variable (plan : JoinPlan)

/-- The names that a plan puts into its statement. -/
def names : List String :=
  plan.selected.flatMap Selected.names ++ [plan.table] ++
    plan.columns.flatMap fun planned =>
      planned.labelJoin.toList.flatMap (LabelJoin.names (plan.ref planned.column.name))

/-- What filters ask for, in order. A filter that stands for nothing is left out. -/
def resolved (filters : List (String × String)) : List Asked :=
  filters.filterMap fun filter =>
    (plan.resolve? filter.1).map fun ref => ⟨ref, searchTokens filter.2⟩

/-- The terms that filters look for, in order. -/
def termsOf (filters : List (String × String)) : List String :=
  (plan.resolved filters).flatMap Asked.terms

/-- The names that filters put into the statement. -/
def namesOf (filters : List (String × String)) : List String :=
  (plan.resolved filters).flatMap Asked.names

end JoinPlan

/-- The names that a plan and a request put into a statement, in order. -/
def BrowseRequest.names (plan : JoinPlan) (request : BrowseRequest) : List String :=
  plan.names ++ plan.namesOf request.filters ++
    (request.sortColumn.bind plan.resolve?).toList.flatMap ColumnRef.names

/-! ## What is asked of one column -/

namespace Condition

variable (ref : ColumnRef) (joiner : Joiner) (index : Nat) (tokens : List SearchToken)

-- In each of the next three, what the tokens after the first come to is known by induction;
-- what is left is the predicate of the first token, by its kind.

theorem names_predicates :
    ((predicates joiner index tokens).flatMap fun p => (p.2.sql ref.sql).names) =
      tokens.flatMap (SearchToken.names ref) := by
  fun_induction predicates joiner index tokens <;>
    simp only [List.flatMap_nil, List.flatMap_cons, *] <;>
    simp [Predicate.sql, ColumnRef.sql, ColumnRef.names, SearchToken.names, *]

theorem bind?_predicates :
    ((predicates joiner index tokens).filterMap fun p => p.2.bind?) =
      (tokens.filterMap SearchToken.term?).map likePattern := by
  fun_induction predicates joiner index tokens <;>
    simp only [List.filterMap_nil, List.filterMap_cons, *] <;>
    simp [Predicate.bind?, SearchToken.term?, *]

theorem placeholders_predicates :
    ((predicates joiner index tokens).flatMap fun p => (p.2.sql ref.sql).placeholders) =
      List.range' index (tokens.filterMap SearchToken.term?).length := by
  fun_induction predicates joiner index tokens <;>
    simp only [List.flatMap_nil, List.flatMap_cons, List.filterMap_cons, *] <;>
    simp [Predicate.sql, ColumnRef.sql, SearchToken.term?, List.range'_succ, *]

variable {ref joiner index tokens} {condition : Condition}

/-- The predicates of a condition are those of its tokens. -/
theorem predicates_of_ofTokens? (hcondition : ofTokens? tokens index = some condition) :
    condition.firstIndex = index ∧
      ∃ joiner, predicates .and index tokens = (joiner, condition.first) :: condition.others := by
  rw [ofTokens?] at hcondition
  split at hcondition
  · simp at hcondition
  · next joiner first others hpredicates =>
    obtain rfl := Option.some.inj hcondition
    exact ⟨rfl, joiner, hpredicates⟩

/-- Tokens that make no condition make no predicates. -/
theorem predicates_eq_nil (hcondition : ofTokens? tokens index = none) :
    predicates .and index tokens = [] := by
  rw [ofTokens?] at hcondition
  split at hcondition
  · assumption
  · simp at hcondition

theorem names_eq_nil (hcondition : ofTokens? tokens index = none) :
    Asked.names ⟨ref, tokens⟩ = [] := by
  rw [Asked.names, ← names_predicates ref .and index, predicates_eq_nil hcondition,
    List.flatMap_nil]

theorem terms_eq_nil (hcondition : ofTokens? tokens index = none) :
    Asked.terms ⟨ref, tokens⟩ = [] := by
  refine List.map_eq_nil_iff.mp (Eq.trans (bind?_predicates .and index tokens).symm ?_)
  rw [predicates_eq_nil hcondition, List.filterMap_nil]

theorem names_sql (hcondition : ofTokens? tokens index = some condition) :
    (condition.sql ref.sql).names = Asked.names ⟨ref, tokens⟩ := by
  obtain ⟨-, joiner, hpredicates⟩ := predicates_of_ofTokens? hcondition
  rw [Asked.names, ← names_predicates ref .and index, hpredicates]
  simp [Condition.sql, names_flatMap]

theorem binds_eq (hcondition : ofTokens? tokens index = some condition) :
    condition.binds = (Asked.terms ⟨ref, tokens⟩).map likePattern := by
  obtain ⟨-, joiner, hpredicates⟩ := predicates_of_ofTokens? hcondition
  rw [Asked.terms, ← bind?_predicates .and index, hpredicates, binds]
  simp [List.filterMap_cons]

theorem placeholders_sql (hcondition : ofTokens? tokens index = some condition) :
    (condition.sql ref.sql).placeholders =
      List.range' index (Asked.terms ⟨ref, tokens⟩).length := by
  obtain ⟨-, joiner, hpredicates⟩ := predicates_of_ofTokens? hcondition
  rw [Asked.terms, ← placeholders_predicates ref .and index, hpredicates]
  simp [Condition.sql, placeholders_flatMap]

end Condition

/-! ## What is asked of all columns and labels -/

/-- Filters mention the columns and labels that are asked for something, in order,
    and bind the terms. Their placeholders are numbered from `index` on, from one
    filter to the next. -/
structure FiltersMention (index : Nat) (asked : List Asked) (filters : List Filter) : Prop where
  names : (filters.flatMap fun filter => filter.sql.names) = asked.flatMap Asked.names
  binds : (filters.flatMap fun filter => filter.condition.binds) =
    (asked.flatMap Asked.terms).map likePattern
  placeholders : (filters.flatMap fun filter => filter.sql.placeholders) =
    List.range' index (asked.flatMap Asked.terms).length

namespace FiltersMention

variable {ref : ColumnRef} {tokens : List SearchToken} {index : Nat} {asked : List Asked}
  {filters : List Filter}

theorem nil (index : Nat) : FiltersMention index [] [] := ⟨rfl, rfl, rfl⟩

/-- Tokens that make no condition mention nothing. -/
theorem cons_of_none (hcondition : Condition.ofTokens? tokens index = none)
    (h : FiltersMention index asked filters) :
    FiltersMention index (⟨ref, tokens⟩ :: asked) filters := by
  refine ⟨?_, ?_, ?_⟩
  · rw [List.flatMap_cons, Condition.names_eq_nil hcondition, List.nil_append, h.names]
  · rw [List.flatMap_cons, Condition.terms_eq_nil hcondition, List.nil_append, h.binds]
  · rw [List.flatMap_cons, Condition.terms_eq_nil hcondition, List.nil_append, h.placeholders]

theorem cons_of_some {condition : Condition}
    (hcondition : Condition.ofTokens? tokens index = some condition)
    (h : FiltersMention condition.nextIndex asked filters) :
    FiltersMention index (⟨ref, tokens⟩ :: asked) (⟨ref, condition⟩ :: filters) := by
  have hbinds : condition.binds = (Asked.terms ⟨ref, tokens⟩).map likePattern :=
    Condition.binds_eq hcondition
  have hnext : condition.nextIndex = index + (Asked.terms ⟨ref, tokens⟩).length := by
    rw [Condition.nextIndex, (Condition.predicates_of_ofTokens? hcondition).1, hbinds,
      List.length_map]
  refine ⟨?_, ?_, ?_⟩
  · rw [List.flatMap_cons, List.flatMap_cons, Filter.sql, Condition.names_sql hcondition, h.names]
  · rw [List.flatMap_cons, List.flatMap_cons, hbinds, h.binds, List.map_append]
  · rw [List.flatMap_cons, List.flatMap_cons, Filter.sql, Condition.placeholders_sql hcondition,
      h.placeholders, hnext, List.length_append]
    simp

end FiltersMention

namespace JoinPlan

variable {plan : JoinPlan} {name expression : String} {filters : List (String × String)}

theorem resolved_cons_of_none (hname : plan.resolve? name = none) :
    plan.resolved ((name, expression) :: filters) = plan.resolved filters := by
  simp [resolved, hname]

theorem resolved_cons_of_some {ref : ColumnRef} (hname : plan.resolve? name = some ref) :
    plan.resolved ((name, expression) :: filters) =
      ⟨ref, searchTokens expression⟩ :: plan.resolved filters := by
  simp [resolved, hname]

end JoinPlan

/-- The filters of a plan mention what is asked for of the columns and labels that
    they stand for. -/
theorem BrowseQuery.filtersMention (plan : JoinPlan) (index : Nat)
    (requested : List (String × String)) :
    FiltersMention index (plan.resolved requested) (filters plan index requested) := by
  fun_induction filters plan index requested with
  | case1 index => exact .nil index
  | case2 index name expression rest hname ih =>
    rwa [JoinPlan.resolved_cons_of_none hname]
  | case3 index name expression rest ref hname hcondition ih =>
    rw [JoinPlan.resolved_cons_of_some hname]
    exact .cons_of_none hcondition ih
  | case4 index name expression rest ref hname condition hcondition ih =>
    rw [JoinPlan.resolved_cons_of_some hname]
    exact .cons_of_some hcondition ih

/-! ## What a statement mentions -/

theorem ColumnRef.names_sql (ref : ColumnRef) : ref.sql.names = ref.names := rfl

theorem ColumnRef.placeholders_sql (ref : ColumnRef) : ref.sql.placeholders = [] := rfl

theorem Selected.names_sql (selected : Selected) : selected.sql.names = selected.names := by
  by_cases hnative : isNative selected.dataType <;>
    simp [Selected.sql, Selected.names, hnative, ColumnRef.names_sql]

theorem Selected.placeholders_sql (selected : Selected) : selected.sql.placeholders = [] := by
  by_cases hnative : isNative selected.dataType <;>
    simp [Selected.sql, hnative, ColumnRef.placeholders_sql]

theorem LabelJoin.names_sql (source : ColumnRef) (join : LabelJoin) :
    (join.sql source).names = join.names source := by
  simp [LabelJoin.sql, LabelJoin.names, ColumnRef.names_sql, ColumnRef.names]

theorem LabelJoin.placeholders_sql (source : ColumnRef) (join : LabelJoin) :
    (join.sql source).placeholders = [] := by
  simp [LabelJoin.sql, ColumnRef.placeholders_sql]

theorem JoinPlan.names_joins (plan : JoinPlan) :
    plan.joins.flatMap Sql.names =
      plan.columns.flatMap fun planned =>
        planned.labelJoin.toList.flatMap (LabelJoin.names (plan.ref planned.column.name)) := by
  rw [joins, List.filterMap_eq_flatMap_toList, List.flatMap_assoc]
  congr 1
  funext planned
  cases planned.labelJoin <;> simp [LabelJoin.names_sql]

theorem JoinPlan.placeholders_joins (plan : JoinPlan) :
    plan.joins.flatMap Sql.placeholders = [] := by
  rw [List.flatMap_eq_nil_iff]
  intro part hpart
  obtain ⟨planned, -, hplanned⟩ := List.mem_filterMap.mp hpart
  obtain ⟨join, -, rfl⟩ := Option.map_eq_some_iff.mp hplanned
  exact join.placeholders_sql _

namespace Statement

variable (statement : Statement)

theorem names_sql :
    statement.sql.names =
      statement.plan.names ++ (statement.filters.flatMap fun filter => filter.sql.names) ++
        statement.sort.toList.flatMap (·.1.names) := by
  obtain ⟨plan, filters, sort, limit, offset⟩ := statement
  have hwhere : names (if filters.isEmpty then []
      else .fixed " WHERE " :: Sql.separated " AND " (filters.map Filter.sql)) =
        filters.flatMap fun filter => filter.sql.names := by
    cases filters <;> simp [names_separated, List.flatMap_map]
  rw [sql, names_append, names_append, names_append, hwhere]
  cases sort <;>
    simp [names_separated, names_flatMap, JoinPlan.names, JoinPlan.names_joins, List.flatMap_map,
      Selected.names_sql, ColumnRef.names_sql]

theorem placeholders_sql :
    statement.sql.placeholders =
      statement.filters.flatMap fun filter => filter.sql.placeholders := by
  obtain ⟨plan, filters, sort, limit, offset⟩ := statement
  have hwhere : placeholders (if filters.isEmpty then []
      else .fixed " WHERE " :: Sql.separated " AND " (filters.map Filter.sql)) =
        filters.flatMap fun filter => filter.sql.placeholders := by
    cases filters <;> simp [placeholders_separated, List.flatMap_map]
  rw [sql, placeholders_append, placeholders_append, placeholders_append, hwhere]
  cases sort <;>
    simp [placeholders_separated, placeholders_flatMap, JoinPlan.placeholders_joins,
      List.flatMap_map, Selected.placeholders_sql, ColumnRef.placeholders_sql]

end Statement

namespace BrowseQuery

variable {request : BrowseRequest} {columns : List TrackedColumn} {foreignKeys : List ForeignKey}
  {pageSize : Int} {query : BrowseQuery}

theorem sort_eq_ok {plan : JoinPlan} {sorted : Option (ColumnRef × SortOrder)}
    (hsort : sort plan request = .ok sorted) :
    sorted.map (·.1) = request.sortColumn.bind plan.resolve? := by
  rw [sort] at hsort
  cases hcolumn : request.sortColumn with
  | none =>
    rw [hcolumn] at hsort
    obtain rfl := Except.ok.inj hsort
    rfl
  | some name =>
    cases href : plan.resolve? name with
    | none => simp [hcolumn, href] at hsort
    | some ref =>
      simp only [hcolumn, href, Except.ok.injEq] at hsort
      subst hsort
      simp [href]

/-- What a compiled query is made of. -/
theorem statement_of_compile (hquery : compile request columns foreignKeys pageSize = .ok query) :
    query.statement.plan = JoinPlan.ofColumns request.table columns foreignKeys ∧
      query.statement.filters = filters query.statement.plan 1 request.filters ∧
      query.statement.sort.map (·.1) =
        request.sortColumn.bind query.statement.plan.resolve? := by
  rw [compile] at hquery
  cases hoffset : BrowseRequest.checkOffset request.offset with
  | error cause => simp [hoffset, bind, Except.bind] at hquery
  | ok _ =>
    cases hsort : sort (JoinPlan.ofColumns request.table columns foreignKeys) request with
    | error cause => simp [hoffset, hsort, bind, Except.bind] at hquery
    | ok sorted =>
      simp only [hoffset, hsort, bind, Except.bind, pure, Except.pure, Except.ok.injEq] at hquery
      subst hquery
      exact ⟨rfl, rfl, sort_eq_ok hsort⟩

/-- The values bound by a compiled query are the patterns of the terms that are looked
    for, in order. -/
theorem binds_of_compile (hquery : compile request columns foreignKeys pageSize = .ok query) :
    query.binds =
      ((JoinPlan.ofColumns request.table columns foreignKeys).termsOf request.filters).map
        likePattern := by
  obtain ⟨hplan, hfilters, -⟩ := statement_of_compile hquery
  rw [binds, Statement.binds, hfilters, (filtersMention _ _ _).binds, hplan, JoinPlan.termsOf]

/-- Read back, the text of a compiled query mentions the names that its plan and
    the request put there, in order, and no literal but the empty one. Its
    placeholders are `$1`, `$2`, … in order, as many as there are values bound:
    the patterns of the terms that are not empty. -/
theorem read_text (hquery : compile request columns foreignKeys pageSize = .ok query) :
    let plan := JoinPlan.ofColumns request.table columns foreignKeys
    ∃ mentions, Sql.read query.text.toList = some mentions ∧
      mentions.filterMap Mention.name? = request.names plan ∧
      (∀ text, .literal text ∈ mentions → text = "") ∧
      mentions.filterMap Mention.placeholder? = List.range' 1 query.binds.length ∧
      query.binds = (plan.termsOf request.filters).map likePattern := by
  obtain ⟨hplan, hfilters, hsort⟩ := statement_of_compile hquery
  have hbinds := binds_of_compile hquery
  refine ⟨query.statement.sql.mentions, query.statement.spaced_sql.read_eq, ?_,
    fun _ => Sql.eq_empty_of_literal_mem_mentions, ?_, hbinds⟩
  · calc query.statement.sql.names
        = query.statement.plan.names ++ query.statement.plan.namesOf request.filters ++
            (query.statement.sort.map (·.1)).toList.flatMap ColumnRef.names := by
          rw [Statement.names_sql, hfilters, (filtersMention _ _ _).names, Option.toList_map,
            List.flatMap_map, JoinPlan.namesOf]
      _ = request.names (JoinPlan.ofColumns request.table columns foreignKeys) := by
          rw [hsort, hplan, BrowseRequest.names]
  · calc query.statement.sql.placeholders
        = List.range' 1 (query.statement.plan.termsOf request.filters).length := by
          rw [Statement.placeholders_sql, hfilters, (filtersMention _ _ _).placeholders,
            JoinPlan.termsOf]
      _ = List.range' 1 query.binds.length := by
          rw [hbinds, hplan, List.length_map]

/-- A table whose names are empty or hold quotes and dollar signs; the label of its
    second column is in the table itself, which is joined under another name. -/
theorem read_text_quoted :
    ∃ query,
      compile ⟨"a\"b $1", [("", "x y"), ("it's", ""), ("z", "w"), ("it's_name", "!= $3")],
          some "", .ascending, 0⟩
        [⟨1, 1, 1, "", "integer"⟩, ⟨2, 1, 2, "it's", "money"⟩]
        [⟨"a\"b $1", "it's", "a\"b $1", "", some ⟨"\"\"", "text"⟩⟩] 50 = .ok query ∧
      ∃ mentions, Sql.read query.text.toList = some mentions ∧
        mentions.filterMap Mention.name? =
          ["a\"b $1", "", "", "a\"b $1", "it's", "it's", "a\"b $1_2", "\"\"", "it's_name",
            "a\"b $1", "a\"b $1", "a\"b $1_2", "a\"b $1", "it's", "a\"b $1_2", "",
            "a\"b $1", "", "a\"b $1", "", "a\"b $1", "it's", "a\"b $1", "it's",
            "a\"b $1_2", "\"\"", "a\"b $1", ""] ∧
        mentions.filterMap Mention.placeholder? = [1, 2, 3] ∧
        query.binds = ["%x%", "%y%", "%$3%"] := by
  refine Exists.imp (fun query hquery => ⟨hquery, ?_⟩) ⟨_, rfl⟩
  obtain ⟨mentions, hread, hnames, -, hplaceholders, hbinds⟩ := read_text hquery
  have hvalues : query.binds = ["%x%", "%y%", "%$3%"] := hbinds.trans (by decide +kernel)
  refine ⟨mentions, hread, hnames.trans (by decide +kernel), ?_, hvalues⟩
  rw [hplaceholders, hvalues]
  rfl

end BrowseQuery

end ShadowCatalog
