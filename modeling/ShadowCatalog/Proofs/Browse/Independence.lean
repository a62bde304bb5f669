import Mathlib.Data.List.Forall2
import ShadowCatalog.Proofs.Browse.Mentions
import ShadowCatalog.Proofs.Search.Grammar

/-!
# What a browse statement does not depend on

The text of a term never gets into a statement. Two requests are *alike* if they differ
in nothing but the texts of terms: what they ask of a column or label is of the same
kinds, token by token, and empty in the same places (`BrowseRequest.Alike`). Requests
that are alike are answered with one statement, or with one error
(`BrowseQuery.compile_alike`). Whatever a term holds, it is only bound, between percent
signs and with its stars turned into percent signs.

What a statement keeps of the terms are the patterns in its predicates. A statement
*without patterns* has the same text, and so a statement is compared without them, from
the predicates of one column up to the compiled request.
-/

namespace ShadowCatalog

/-! ## Requests that are alike -/

namespace SearchToken

/-- The kinds of tokens. -/
inductive Kind
  | all
  | joiner (joiner : Joiner)
  | contains
  | lacks
  deriving DecidableEq, Repr

/-- The kind of a token. -/
def kind : SearchToken → Kind
  | .all => .all
  | .joiner j => .joiner j
  | .contains _ => .contains
  | .lacks _ => .lacks

/-- The tokens are of one kind, and both empty or both not. -/
structure Alike (token other : SearchToken) : Prop where
  kind : token.kind = other.kind
  empty : token.value = "" ↔ other.value = ""

instance : DecidableRel Alike := fun token other =>
  decidable_of_iff (token.kind = other.kind ∧ (token.value = "" ↔ other.value = ""))
    ⟨fun h => ⟨h.1, h.2⟩, fun h => ⟨h.kind, h.empty⟩⟩

end SearchToken

/-- The filters have one name, and what they ask for is alike. -/
def BrowseRequest.AlikeFilter (filter other : String × String) : Prop :=
  filter.1 = other.1 ∧
    List.Forall₂ SearchToken.Alike (searchTokens filter.2) (searchTokens other.2)

/-- The requests differ in the texts of terms only. -/
structure BrowseRequest.Alike (request other : BrowseRequest) : Prop where
  table : request.table = other.table
  sortColumn : request.sortColumn = other.sortColumn
  sortOrder : request.sortOrder = other.sortOrder
  offset : request.offset = other.offset
  filters : List.Forall₂ AlikeFilter request.filters other.filters

/-! ## Statements without patterns -/

/-- A predicate without its pattern. -/
def Predicate.withoutPattern : Predicate → Predicate
  | .matching index _ => .matching index ""
  | .differing index _ => .differing index ""
  | predicate => predicate

/-- A condition without the patterns. -/
def Condition.withoutPatterns (condition : Condition) : Condition where
  firstIndex := condition.firstIndex
  first := condition.first.withoutPattern
  others := condition.others.map fun other => (other.1, other.2.withoutPattern)

/-- A filter without the patterns. -/
def Filter.withoutPatterns (filter : Filter) : Filter where
  ref := filter.ref
  condition := filter.condition.withoutPatterns

/-- A statement without the patterns. -/
def Statement.withoutPatterns (statement : Statement) : Statement :=
  { statement with filters := statement.filters.map Filter.withoutPatterns }

/-- A compiled request without the patterns. -/
def BrowseQuery.withoutPatterns (query : BrowseQuery) : BrowseQuery :=
  { query with statement := query.statement.withoutPatterns }

@[simp] theorem Predicate.withoutPattern_matching (index : Nat) (pattern : String) :
    (matching index pattern).withoutPattern = .matching index "" := rfl

@[simp] theorem Predicate.withoutPattern_differing (index : Nat) (pattern : String) :
    (differing index pattern).withoutPattern = .differing index "" := rfl

@[simp] theorem Predicate.sql_withoutPattern (subject : Sql) (predicate : Predicate) :
    predicate.withoutPattern.sql subject = predicate.sql subject := by
  cases predicate <;> rfl

@[simp] theorem Predicate.isSome_bind?_withoutPattern (predicate : Predicate) :
    predicate.withoutPattern.bind?.isSome = predicate.bind?.isSome := by
  cases predicate <;> rfl

namespace Condition

variable (condition : Condition)

@[simp] theorem sql_withoutPatterns (subject : Sql) :
    condition.withoutPatterns.sql subject = condition.sql subject := by
  simp [withoutPatterns, sql, List.flatMap_map]

@[simp] theorem length_binds_withoutPatterns :
    condition.withoutPatterns.binds.length = condition.binds.length := by
  have hall : condition.withoutPatterns.first :: condition.withoutPatterns.others.map (·.2) =
      (condition.first :: condition.others.map (·.2)).map Predicate.withoutPattern := by
    simp [withoutPatterns]
  rw [binds, binds, hall, List.length_filterMap_eq_countP, List.length_filterMap_eq_countP,
    List.countP_map]
  simp only [Function.comp_def, Predicate.isSome_bind?_withoutPattern]

@[simp] theorem nextIndex_withoutPatterns :
    condition.withoutPatterns.nextIndex = condition.nextIndex := by
  rw [nextIndex, length_binds_withoutPatterns]
  rfl

end Condition

@[simp] theorem Filter.sql_withoutPatterns (filter : Filter) :
    filter.withoutPatterns.sql = filter.sql :=
  filter.condition.sql_withoutPatterns _

/-- The patterns are not in the text of a statement. -/
theorem Statement.sql_withoutPatterns (statement : Statement) :
    statement.withoutPatterns.sql = statement.sql := by
  have hfilters : (statement.filters.map Filter.withoutPatterns).map Filter.sql =
      statement.filters.map Filter.sql := by
    rw [List.map_map]
    exact List.map_congr_left fun filter _ => filter.sql_withoutPatterns
  rw [withoutPatterns, sql, hfilters, List.isEmpty_map]
  rfl

theorem Statement.length_binds_withoutPatterns (statement : Statement) :
    statement.withoutPatterns.binds.length = statement.binds.length := by
  simp [withoutPatterns, binds, List.length_flatMap, Filter.withoutPatterns, Function.comp_def]

/-! ## Compiling what is alike -/

/-- Without the patterns, tokens that are alike make the same predicates. -/
theorem Condition.predicates_alike {tokens others : List SearchToken}
    (halike : List.Forall₂ SearchToken.Alike tokens others) (joiner : Joiner) (index : Nat) :
    (predicates joiner index tokens).map (fun p => (p.1, p.2.withoutPattern)) =
      (predicates joiner index others).map (fun p => (p.1, p.2.withoutPattern)) := by
  induction halike generalizing joiner index with
  | nil => rfl
  | @cons token other tokens others htoken _ ih =>
    obtain ⟨hkind, hempty⟩ := htoken
    cases token <;> cases other <;> cases hkind
    case cons.all.all.refl => simp [predicates, ih]
    case cons.joiner.joiner.refl => simp [predicates, ih]
    case cons.contains.contains.refl term term' =>
      have hempty : term = "" ↔ term' = "" := hempty
      by_cases hterm : term = ""
      · simp [predicates, hterm, hempty.1 hterm, ih]
      · simp [predicates, hterm, mt hempty.2 hterm, ih]
    case cons.lacks.lacks.refl term term' =>
      have hempty : term = "" ↔ term' = "" := hempty
      by_cases hterm : term = ""
      · simp [predicates, hterm, hempty.1 hterm, ih]
      · simp [predicates, hterm, mt hempty.2 hterm, ih]

theorem Condition.map_withoutPatterns_ofTokens? (tokens : List SearchToken) (index : Nat) :
    (ofTokens? tokens index).map withoutPatterns =
      match (predicates .and index tokens).map (fun p => (p.1, p.2.withoutPattern)) with
      | [] => none
      | (_, first) :: others => some ⟨index, first, others⟩ := by
  rw [ofTokens?]
  cases predicates .and index tokens <;> rfl

/-- Without the patterns, tokens that are alike make the same condition, if any. -/
theorem Condition.ofTokens?_alike {tokens others : List SearchToken}
    (halike : List.Forall₂ SearchToken.Alike tokens others) (index : Nat) :
    (ofTokens? tokens index).map withoutPatterns =
      (ofTokens? others index).map withoutPatterns := by
  rw [map_withoutPatterns_ofTokens?, map_withoutPatterns_ofTokens?, predicates_alike halike]

namespace BrowseQuery

/-- Without the patterns, requests that are alike make the same filters. -/
theorem filters_alike (plan : JoinPlan) (index : Nat) {requested others : List (String × String)}
    (halike : List.Forall₂ BrowseRequest.AlikeFilter requested others) :
    (filters plan index requested).map Filter.withoutPatterns =
      (filters plan index others).map Filter.withoutPatterns := by
  induction halike generalizing index with
  | nil => rfl
  | @cons filter other requested others hfilter _ ih =>
    obtain ⟨name, expression⟩ := filter
    obtain ⟨name', expression'⟩ := other
    obtain ⟨rfl : name = name', htokens⟩ := hfilter
    simp only [filters]
    cases plan.resolve? name with
    | none => exact ih index
    | some ref =>
      have hcondition := Condition.ofTokens?_alike htokens index
      cases h : Condition.ofTokens? (searchTokens expression) index with
      | none =>
        rw [h, Option.map_none, eq_comm, Option.map_eq_none_iff] at hcondition
        rw [hcondition]
        exact ih index
      | some condition =>
        rw [h, Option.map_some, eq_comm, Option.map_eq_some_iff] at hcondition
        obtain ⟨condition', hcondition', heq⟩ := hcondition
        -- Both conditions bind as many values, so the next filters are numbered alike.
        have hnext : condition'.nextIndex = condition.nextIndex := by
          rw [← condition'.nextIndex_withoutPatterns, heq, condition.nextIndex_withoutPatterns]
        have hfirst : Filter.withoutPatterns ⟨ref, condition⟩ =
            Filter.withoutPatterns ⟨ref, condition'⟩ :=
          congrArg (Filter.mk ref) heq.symm
        simp only [hcondition', List.map_cons, hfirst, hnext, ih]

theorem ignored_alike (plan : JoinPlan) {requested others : List (String × String)}
    (hnames : requested.map (·.1) = others.map (·.1)) :
    ignored plan requested = ignored plan others := by
  rw [ignored, hnames, ignored]

variable {request other : BrowseRequest} (columns : List TrackedColumn)
  (foreignKeys : List ForeignKey) (pageSize : Int)

/-- Without the patterns, requests that are alike compile to the same. -/
theorem map_withoutPatterns_compile (halike : request.Alike other) :
    (compile request columns foreignKeys pageSize).map withoutPatterns =
      (compile other columns foreignKeys pageSize).map withoutPatterns := by
  obtain ⟨table, filters, sortColumn, sortOrder, offset⟩ := request
  obtain ⟨table', filters', sortColumn', sortOrder', offset'⟩ := other
  obtain ⟨htable, hcolumn, horder, hoffset, hfilters⟩ := halike
  dsimp only at htable hcolumn horder hoffset hfilters
  subst htable hcolumn horder hoffset
  have hnames : filters.map (·.1) = filters'.map (·.1) := by
    refine List.forall₂_eq_eq_eq ▸ List.forall₂_map_left_iff.2 (List.forall₂_map_right_iff.2 ?_)
    exact hfilters.imp fun _ _ hfilter => hfilter.1
  have hsort (plan : JoinPlan) : sort plan ⟨table, filters, sortColumn, sortOrder, offset⟩ =
      sort plan ⟨table, filters', sortColumn, sortOrder, offset⟩ := rfl
  simp only [compile, hsort, ignored_alike _ hnames]
  cases BrowseRequest.checkOffset offset with
  | error cause => rfl
  | ok _ =>
    cases sort (.ofColumns table columns foreignKeys)
        ⟨table, filters', sortColumn, sortOrder, offset⟩ with
    | error cause => rfl
    | ok sorted =>
      simp [bind, Except.bind, pure, Except.pure, Except.map, withoutPatterns,
        Statement.withoutPatterns, filters_alike _ 1 hfilters]

/-- The value is bound for the term: it is the term between percent signs, with its
    stars turned into percent signs. -/
def Binds (value term : String) : Prop :=
  value.toList = '%' :: (term.toList.map fun c => if c = '*' then '%' else c) ++ ['%']

theorem binds_likePattern (term : String) : Binds (likePattern term) term := by
  rw [Binds, likePattern, String.toList_ofList]

theorem forall₂_binds_of_compile {query : BrowseQuery}
    (hquery : compile request columns foreignKeys pageSize = .ok query) :
    List.Forall₂ Binds query.binds
      ((JoinPlan.ofColumns request.table columns foreignKeys).termsOf request.filters) := by
  rw [binds_of_compile hquery, List.forall₂_map_left_iff]
  exact List.forall₂_same.2 fun term _ => binds_likePattern term

/-- Requests that are alike are refused for one reason or answered with one statement.
    What the terms hold is nowhere but in the values bound for them, in order. -/
theorem compile_alike (halike : request.Alike other) :
    let plan := JoinPlan.ofColumns request.table columns foreignKeys
    match compile request columns foreignKeys pageSize,
        compile other columns foreignKeys pageSize with
    | .error cause, .error cause' => cause = cause'
    | .ok query, .ok query' =>
      query.text = query'.text ∧ query.columnMeta = query'.columnMeta ∧
        query.pageSize = query'.pageSize ∧ query.ignoredFilters = query'.ignoredFilters ∧
        query.binds.length = query'.binds.length ∧
        List.Forall₂ Binds query.binds (plan.termsOf request.filters) ∧
        List.Forall₂ Binds query'.binds (plan.termsOf other.filters)
    | _, _ => False := by
  have hsame := map_withoutPatterns_compile columns foreignKeys pageSize halike
  cases hquery : compile request columns foreignKeys pageSize with
  | error cause =>
    cases hquery' : compile other columns foreignKeys pageSize with
    | error cause' => simpa [hquery, hquery', Except.map] using hsame
    | ok query' => simp [hquery, hquery', Except.map] at hsame
  | ok query =>
    cases hquery' : compile other columns foreignKeys pageSize with
    | error cause' => simp [hquery, hquery', Except.map] at hsame
    | ok query' =>
      have hqueries : query.withoutPatterns = query'.withoutPatterns := by
        simpa [hquery, hquery', Except.map] using hsame
      have hstatement : query.statement.withoutPatterns = query'.statement.withoutPatterns :=
        congrArg statement hqueries
      refine ⟨?_, ?_, ?_, ?_, ?_, ?_, ?_⟩
      · rw [text, text, ← query.statement.sql_withoutPatterns, hstatement,
          query'.statement.sql_withoutPatterns]
      · exact (congrArg (·.plan.columnMeta) hstatement :)
      · exact (congrArg (·.pageSize) hqueries :)
      · exact (congrArg (·.ignoredFilters) hqueries :)
      · rw [binds, binds, ← query.statement.length_binds_withoutPatterns, hstatement,
          query'.statement.length_binds_withoutPatterns]
      · exact forall₂_binds_of_compile columns foreignKeys pageSize hquery
      · rw [halike.table]
        exact forall₂_binds_of_compile columns foreignKeys pageSize hquery'

/-- One request asks for plain terms. In the other, each term holds what would end a
    literal or a name, comment out the rest or stand for another parameter. -/
theorem compile_alike_hostile :
    let plain : BrowseRequest :=
      ⟨"books", [("title", "red OR !=blue ''"), ("price", "1"), ("isbn", "a*b")], some "title",
        .ascending, 0⟩
    let hostile : BrowseRequest :=
      ⟨"books", [("title", ");-- or != \"/*$1'\" ''"), ("price", "$2"), ("isbn", "*\"*")],
        some "title", .ascending, 0⟩
    let columns : List TrackedColumn := [⟨1, 1, 1, "title", "text"⟩, ⟨2, 1, 2, "isbn", "text"⟩]
    plain.Alike hostile ∧ ∃ query query',
      compile plain columns [] 50 = .ok query ∧ compile hostile columns [] 50 = .ok query' ∧
        query.text = query'.text ∧ List.Forall₂ Binds query.binds ["red", "blue", "a*b"] ∧
        List.Forall₂ Binds query'.binds [");--", "/*$1'", "*\"*"] := by
  intro plain hostile columns
  have halike : plain.Alike hostile :=
    ⟨rfl, rfl, rfl, rfl, .cons ⟨rfl, by decide +kernel⟩ (.cons ⟨rfl, by decide +kernel⟩
      (.cons ⟨rfl, by decide +kernel⟩ .nil))⟩
  have hcompiled := compile_alike columns [] 50 halike
  have hterms : (JoinPlan.ofColumns "books" columns []).termsOf plain.filters =
      ["red", "blue", "a*b"] := by decide +kernel
  have hterms' : (JoinPlan.ofColumns "books" columns []).termsOf hostile.filters =
      [");--", "/*$1'", "*\"*"] := by decide +kernel
  obtain ⟨query, hquery⟩ : ∃ query, compile plain columns [] 50 = .ok query := ⟨_, rfl⟩
  obtain ⟨query', hquery'⟩ : ∃ query', compile hostile columns [] 50 = .ok query' := ⟨_, rfl⟩
  simp only [hquery, hquery'] at hcompiled
  obtain ⟨htext, -, -, -, -, hbinds, hbinds'⟩ := hcompiled
  exact ⟨halike, query, query', hquery, hquery', htext, hterms ▸ hbinds, hterms' ▸ hbinds'⟩

end BrowseQuery

end ShadowCatalog
