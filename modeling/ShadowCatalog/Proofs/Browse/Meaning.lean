import ShadowCatalog.Proofs.Browse.Mentions
import ShadowCatalog.Proofs.Sql.Formula

/-!
# What the filters of a browse statement mean

The filters of a request become one clause of the statement. Read by the rules of the
language, it is the conjunction of one formula for each filter that asks for something
(`Asked.formulas`), and without such filters there is no clause. What a filter means
is told from its tokens (`Asked.formula?`). Its terms are cut into groups before each
term right before which `OR` stands. Some group has to hold, and of a group each term.

The clause is flat text, so what has to be shown is that it is read as it was meant. A
predicate is an operand (`Predicate.isOperand`), and so is a condition, which stands
between parentheses (`Condition.isOperand`). What the tokens of a filter mean comes out
of the predicates by induction on the tokens, with those before them as context.
-/

namespace ShadowCatalog

open Sql

/-! ## What tokens and filters mean -/

namespace SearchToken

/-- What a token asks of a column, if it is a term. A term that is not empty has its
    pattern bound to the placeholder of this number. -/
def formula? (ref : ColumnRef) (index : Nat) : SearchToken → Option Formula
  | .all => some (.atom .always)
  | .joiner _ => none
  | .contains term =>
    if term = "" then
      some (.or (.atom (.column ref .isNull)) (.atom (.column ref (.equal ""))))
    else some (.atom (.column ref (.like index)))
  | .lacks term =>
    if term = "" then
      some (.and (.atom (.column ref .isNotNull)) (.atom (.column ref (.differ ""))))
    else some (.atom (.column ref (.notLike index)))

/-- The token is no term. -/
def isJoiner : SearchToken → Bool
  | .joiner _ => true
  | _ => false

/-- How a term after these tokens is joined. Between two terms there are only joiners,
    and the last one counts. -/
def joinerAfter (before : List SearchToken) : Joiner :=
  if before.getLast? = some (.joiner .or) then .or else .and

/-- A term after these tokens, with its joiner. Placeholders are numbered from `index`. -/
def operand? (ref : ColumnRef) (index : Nat) (before : List SearchToken) (token : SearchToken) :
    Option (Joiner × Formula) :=
  (token.formula? ref (index + (before.filterMap term?).length)).map fun formula =>
    (joinerAfter before, formula)

end SearchToken

namespace Asked

variable (asked : Asked) (index : Nat)

/-- The terms, in order, each with its joiner. -/
def operands : List (Joiner × Formula) :=
  (asked.tokens.mapIdx fun i token =>
    token.operand? asked.ref index (asked.tokens.take i)).filterMap id

/-- What a filter means, if it asks for something. -/
def formula? : Option Formula :=
  Formula.any ((Formula.groups (asked.operands index)).filterMap Formula.conjunction)

end Asked

/-- What filters mean, in order, their placeholders numbered from `index`. A filter that
    asks for nothing is left out. -/
def Asked.formulas (index : Nat) (asked : List Asked) : List Formula :=
  (asked.mapIdx fun i filter =>
    filter.formula? (index + ((asked.take i).flatMap terms).length)).filterMap id

/-- What stands between `WHERE` and `ORDER BY` or `LIMIT`, if there is such a clause. -/
def Sql.whereClause? (tokens : List SqlToken) : Option (List SqlToken) :=
  ((tokens.takeWhile fun token => token ≠ .word "ORDER" ∧ token ≠ .word "LIMIT").dropWhile
    (· ≠ .word "WHERE")).tail?

/-! ## Predicates and conditions are read as they are meant -/

/-- What a predicate asks of a column. -/
def Predicate.formula (ref : ColumnRef) : Predicate → Formula
  | .always => .atom .always
  | .blank => .or (.atom (.column ref .isNull)) (.atom (.column ref (.equal "")))
  | .present => .and (.atom (.column ref .isNotNull)) (.atom (.column ref (.differ "")))
  | .matching index _ => .atom (.column ref (.like index))
  | .differing index _ => .atom (.column ref (.notLike index))

namespace Predicate

variable (ref : ColumnRef)

@[simp] theorem formula_blank : blank.formula ref =
    .or (.atom (.column ref .isNull)) (.atom (.column ref (.equal ""))) := rfl

@[simp] theorem formula_present : present.formula ref =
    .and (.atom (.column ref .isNotNull)) (.atom (.column ref (.differ ""))) := rfl

@[simp] theorem formula_matching (index : Nat) (pattern : String) :
    (matching index pattern).formula ref = .atom (.column ref (.like index)) := rfl

@[simp] theorem formula_differing (index : Nat) (pattern : String) :
    (differing index pattern).formula ref = .atom (.column ref (.notLike index)) := rfl

end Predicate

/-- What a condition asks of a column. -/
def Condition.formula (ref : ColumnRef) (condition : Condition) : Formula :=
  .row (condition.first.formula ref)
    (condition.others.map fun other => (other.1, other.2.formula ref))

theorem tokens_joiner (joiner : Joiner) :
    (Fragment.fixed (" " ++ joiner.word ++ " ")).tokens = [.word joiner.word] := by
  cases joiner <;> decide

theorem ColumnRef.tokens_sql (ref : ColumnRef) :
    ref.sql.tokens =
      [.mention (.name ref.qualifier), .word ".", .mention (.name ref.column)] := rfl

/-- A column and what is asked of it are an operand. -/
theorem ColumnRef.isOperand (ref : ColumnRef) {tokens : List SqlToken} {test : Test}
    (htest : Test.ofTokens? tokens = some test)
    (htokens : ∀ token ∈ tokens, token.isConnective = false) :
    IsOperand (ref.sql.tokens ++ tokens) (.atom (.column ref test)) := by
  refine .atom (by simp [ref.tokens_sql, Comparison.ofTokens?, htest]) fun token htoken => ?_
  rcases List.mem_append.1 htoken with htoken | htoken
  · rw [ref.tokens_sql] at htoken
    simp only [List.mem_cons, List.not_mem_nil, or_false] at htoken
    rcases htoken with rfl | rfl | rfl <;> simp [SqlToken.isConnective]
  · exact htokens token htoken

/-- Two operands between parentheses are an operand. -/
theorem IsOperand.pair {first second : List SqlToken} {formula formula' : Formula}
    (hfirst : IsOperand first formula) (joiner : Joiner) (hsecond : IsOperand second formula') :
    IsOperand (.word "(" :: (first ++ .word joiner.word :: second ++ [.word ")"]))
      (.row formula [(joiner, formula')]) := by
  have hrow := IsFormula.row hfirst [(joiner, second, formula')] (·.1) (·.2.1) (·.2.2)
    (by simpa using hsecond)
  simpa using hrow.isOperand

/-- A predicate is an operand. If it asks two things of a column, they stand between
    parentheses. -/
theorem Predicate.isOperand (ref : ColumnRef) (predicate : Predicate) :
    IsOperand (predicate.sql ref.sql).tokens (predicate.formula ref) := by
  have hopen : (Fragment.fixed "(").tokens = [.word "("] := by decide
  have hclose : (Fragment.fixed ")").tokens = [.word ")"] := by decide
  cases predicate with
  | always =>
    have htrue : (Fragment.fixed "TRUE").tokens = [.word "TRUE"] := by decide
    rw [sql, tokens_cons, htrue]
    exact .atom rfl (by decide)
  | blank =>
    have hor : (Fragment.fixed " IS NULL OR ").tokens =
        [.word "IS", .word "NULL", .word Joiner.or.word] := by decide
    have hequal : (Fragment.fixed " = ").tokens = [.word "="] := by decide
    have hnull : IsOperand (ref.sql.tokens ++ [.word "IS", .word "NULL"])
        (.atom (.column ref .isNull)) := ref.isOperand rfl (by decide)
    have hempty : IsOperand (ref.sql.tokens ++ [.word "=", .mention (.literal "")])
        (.atom (.column ref (.equal ""))) := ref.isOperand rfl (by decide)
    have hboth : IsOperand _ (formula ref .blank) := hnull.pair .or hempty
    simpa [sql, hopen, hclose, hor, hequal] using hboth
  | present =>
    have hand : (Fragment.fixed " IS NOT NULL AND ").tokens =
        [.word "IS", .word "NOT", .word "NULL", .word Joiner.and.word] := by decide
    have hdiffer : (Fragment.fixed " <> ").tokens = [.word "<>"] := by decide
    have hvalue : IsOperand (ref.sql.tokens ++ [.word "IS", .word "NOT", .word "NULL"])
        (.atom (.column ref .isNotNull)) := ref.isOperand rfl (by decide)
    have htext : IsOperand (ref.sql.tokens ++ [.word "<>", .mention (.literal "")])
        (.atom (.column ref (.differ ""))) := ref.isOperand rfl (by decide)
    have hboth : IsOperand _ (formula ref .present) := hvalue.pair .and htext
    simpa [sql, hopen, hclose, hand, hdiffer] using hboth
  | matching index pattern =>
    have hlike : (Fragment.fixed "::text ILIKE ").tokens =
        [.word "::", .word "text", .word "ILIKE"] := by decide
    rw [sql, tokens_append, tokens_cons, hlike]
    exact ref.isOperand rfl (by simp [SqlToken.isConnective])
  | differing index pattern =>
    have hnotLike : (Fragment.fixed "::text NOT ILIKE ").tokens =
        [.word "::", .word "text", .word "NOT", .word "ILIKE"] := by decide
    rw [sql, tokens_append, tokens_cons, hnotLike]
    exact ref.isOperand rfl (by simp [SqlToken.isConnective])

/-- A condition is an operand. -/
theorem Condition.isOperand (ref : ColumnRef) (condition : Condition) :
    IsOperand (condition.sql ref.sql).tokens (condition.formula ref) := by
  have hrow := IsFormula.row (condition.first.isOperand ref) condition.others (·.1)
    (fun other => (other.2.sql ref.sql).tokens) (fun other => other.2.formula ref)
    fun other _ => other.2.isOperand ref
  have hopen : (Fragment.fixed "(").tokens = [.word "("] := by decide
  have hclose : (Fragment.fixed ")").tokens = [.word ")"] := by decide
  have hothers : Sql.tokens (condition.others.flatMap fun other =>
      .fixed (" " ++ other.1.word ++ " ") :: other.2.sql ref.sql) =
        condition.others.flatMap fun other =>
          .word other.1.word :: (other.2.sql ref.sql).tokens := by
    simp [tokens_flatMap, tokens_joiner]
  have htokens : (condition.sql ref.sql).tokens = .word "(" ::
      ((condition.first.sql ref.sql).tokens ++ (condition.others.flatMap fun other =>
        .word other.1.word :: (other.2.sql ref.sql).tokens) ++ [.word ")"]) := by
    simp only [sql, tokens_append, tokens_cons, tokens_nil, hopen, hclose, hothers,
      List.append_nil, List.cons_append, List.nil_append]
  rw [htokens]
  exact hrow.isOperand

/-! ## The clause -/

/-- What a filter asks of its column or label. -/
def Filter.formula (filter : Filter) : Formula := filter.condition.formula filter.ref

theorem tokens_separated_and (first : Sql) (others : List Sql) :
    (Sql.separated " AND " (first :: others)).tokens =
      first.tokens ++ others.flatMap fun other => .word Joiner.and.word :: other.tokens := by
  have hand : (Fragment.fixed " AND ").tokens = [.word Joiner.and.word] := by decide
  induction others generalizing first with
  | nil => simp [Sql.separated]
  | cons next others ih =>
    rw [Sql.separated, tokens_append, tokens_cons, hand, ih, List.flatMap_cons]
    · simp
    · simp

/-- What is asked of the rows is the conjunction of what the filters ask. -/
theorem Statement.parse_asked (statement : Statement) (hfilters : statement.filters ≠ []) :
    Formula.parse statement.asked.tokens = Formula.all (statement.filters.map Filter.formula) := by
  obtain ⟨filter, filters, hcons⟩ := List.exists_cons_of_ne_nil hfilters
  have hoperand (filter : Filter) : IsOperand filter.sql.tokens filter.formula :=
    filter.condition.isOperand filter.ref
  have hrow := IsFormula.row (hoperand filter) filters (fun _ => .and)
    (fun filter => filter.sql.tokens) Filter.formula fun filter _ => hoperand filter
  have htokens : statement.asked.tokens = filter.sql.tokens ++ filters.flatMap fun filter =>
      .word Joiner.and.word :: filter.sql.tokens := by
    rw [asked, hcons, List.map_cons, tokens_separated_and, List.flatMap_map]
  rw [htokens, hrow.parse_eq, hcons, List.map_cons, Formula.all, Formula.row,
    Formula.foldl_advance_of_and (by simp), List.map_map]
  rfl

/-- What is asked of the rows is a clause, unless nothing is asked. -/
theorem Statement.whereClause?_tokens (statement : Statement) :
    whereClause? statement.sql.tokens =
      if statement.filters.isEmpty then none else some statement.asked.tokens := by
  let stays (token : SqlToken) : Bool := token ≠ .word "ORDER" ∧ token ≠ .word "LIMIT"
  have hstays {token : SqlToken} (htoken : token.beginsClause = false) : stays token := by
    simp_all [SqlToken.beginsClause, stays]
  have hskipped {token : SqlToken} (htoken : token.beginsClause = false) :
      decide (token ≠ .word "WHERE") = true := by
    simp_all [SqlToken.beginsClause]
  have hsource := statement.delimited_source.beginsClause_eq_false
  have hasked := statement.delimited_asked.beginsClause_eq_false
  have harrangement : statement.arrangement.tokens.takeWhile stays = [] := by
    obtain ⟨text, later, heq, htext⟩ := statement.arrangement_eq_cons
    have horder : (Fragment.fixed " ORDER BY ").tokens = [.word "ORDER", .word "BY"] := by decide
    have hlimit : (Fragment.fixed " LIMIT ").tokens = [.word "LIMIT"] := by decide
    rcases htext with rfl | rfl
    · simp [heq, horder, stays]
    · simp [heq, hlimit, stays]
  have hwhere : (Fragment.fixed " WHERE ").tokens = [.word "WHERE"] := by decide
  rw [whereClause?, Statement.sql_eq, tokens_append,
    List.takeWhile_append_of_pos fun token htoken => hstays (hsource token htoken),
    List.dropWhile_append_of_pos fun token htoken => hskipped (hsource token htoken)]
  by_cases hfilters : statement.filters.isEmpty
  · simp only [if_pos hfilters, List.nil_append, harrangement]
    rfl
  · have hkeep : ∀ token ∈ Sql.tokens (.fixed " WHERE " :: statement.asked), stays token := by
      rw [tokens_cons, hwhere]
      simpa [stays] using fun token htoken => hstays (hasked token htoken)
    rw [if_neg hfilters, if_neg hfilters, tokens_append, List.takeWhile_append_of_pos hkeep,
      harrangement, List.append_nil, tokens_cons, hwhere]
    rfl

/-! ## What is read is what was asked -/

namespace Condition

open SearchToken

variable (ref : ColumnRef) (index : Nat) (before later : List SearchToken)

theorem map_formula_predicates_cons (token : SearchToken) :
    (predicates (joinerAfter before) (index + (before.filterMap term?).length)
        (token :: later)).map (fun p => (p.1, p.2.formula ref)) =
      (token.operand? ref index before).toList ++
        (predicates (joinerAfter (before ++ [token]))
          (index + ((before ++ [token]).filterMap term?).length) later).map
          (fun p => (p.1, p.2.formula ref)) := by
  have hafter : joinerAfter (before ++ [token]) = if token = .joiner .or then .or else .and := by
    simp [joinerAfter]
  have hcount : ((before ++ [token]).filterMap term?).length =
      (before.filterMap term?).length + token.term?.toList.length := by
    cases hterm : token.term? <;> simp [List.filterMap_append, hterm]
  rw [hafter, hcount, ← Nat.add_assoc]
  cases token with
  | all => rfl
  | joiner j => cases j <;> rfl
  | contains term =>
    by_cases hterm : term = "" <;> simp [predicates, operand?, SearchToken.formula?, term?, hterm]
  | lacks term =>
    by_cases hterm : term = "" <;> simp [predicates, operand?, SearchToken.formula?, term?, hterm]

/-- The predicates of tokens are their terms. Which joiner and placeholder a term gets is
    settled by the tokens before it. -/
theorem map_formula_predicates :
    (predicates (joinerAfter before) (index + (before.filterMap term?).length) later).map
        (fun p => (p.1, p.2.formula ref)) =
      (later.mapIdx fun i token => token.operand? ref index (before ++ later.take i)).filterMap
        id := by
  induction later generalizing before with
  | nil => rfl
  | cons token later ih =>
    rw [map_formula_predicates_cons, ih, List.mapIdx_cons]
    cases htoken : token.operand? ref index before <;> simp [htoken]

/-- What a filter means is what its condition asks for, if there is one. -/
theorem formula?_eq (asked : Asked) :
    asked.formula? index = (ofTokens? asked.tokens index).map (formula asked.ref) := by
  have hoperands : asked.operands index =
      (predicates .and index asked.tokens).map fun p => (p.1, p.2.formula asked.ref) :=
    (map_formula_predicates asked.ref index [] asked.tokens).symm
  rw [Asked.formula?, hoperands, ofTokens?]
  cases predicates .and index asked.tokens with
  | nil => rfl
  | cons first others => exact Formula.any_groups_eq _ _ _

end Condition

theorem Asked.formulas_cons (index : Nat) (filter : Asked) (asked : List Asked) :
    formulas index (filter :: asked) =
      (filter.formula? index).toList ++ formulas (index + filter.terms.length) asked := by
  cases hfilter : filter.formula? index <;>
    simp [formulas, List.mapIdx_cons, hfilter, Nat.add_assoc]

/-- The conditions of filters ask for what the filters mean. -/
theorem BrowseQuery.map_formula_filters (plan : JoinPlan) (index : Nat)
    (requested : List (String × String)) :
    (filters plan index requested).map Filter.formula =
      Asked.formulas index (plan.resolved requested) := by
  fun_induction filters plan index requested with
  | case1 index => rfl
  | case2 index name expression rest hname ih =>
    rwa [JoinPlan.resolved_cons_of_none hname]
  | case3 index name expression rest ref hname hcondition ih =>
    rw [JoinPlan.resolved_cons_of_some hname, Asked.formulas_cons, Condition.formula?_eq,
      hcondition, Condition.terms_eq_nil hcondition, ih]
    rfl
  | case4 index name expression rest ref hname condition hcondition ih =>
    have hnext : condition.nextIndex =
        index + (Asked.terms ⟨ref, searchTokens expression⟩).length := by
      rw [Condition.nextIndex, (Condition.predicates_of_ofTokens? hcondition).1,
        Condition.binds_eq hcondition, List.length_map]
    rw [JoinPlan.resolved_cons_of_some hname, Asked.formulas_cons, Condition.formula?_eq,
      hcondition, List.map_cons, ih, hnext]
    rfl

/-! ## Joiners that have no effect -/

namespace Condition

variable {index : Nat} {joiner : Joiner} {tokens : List SearchToken}

/-- The first predicate is joined to nothing. -/
theorem predicates_joiner (joiner other : Joiner) (index : Nat) (tokens : List SearchToken) :
    (predicates joiner index tokens).head?.map (·.2) =
        (predicates other index tokens).head?.map (·.2) ∧
      (predicates joiner index tokens).tail = (predicates other index tokens).tail := by
  cases tokens with
  | nil => exact ⟨rfl, rfl⟩
  | cons token tokens =>
    cases token with
    | contains term => by_cases hterm : term = "" <;> simp [predicates, hterm]
    | lacks term => by_cases hterm : term = "" <;> simp [predicates, hterm]
    | _ => exact ⟨rfl, rfl⟩

theorem ofTokens?_joiner_cons :
    ofTokens? (.joiner joiner :: tokens) index = ofTokens? tokens index := by
  have hstart : predicates .and index (.joiner joiner :: tokens) =
      predicates joiner index tokens := rfl
  have hsame := predicates_joiner joiner .and index tokens
  rw [ofTokens?, ofTokens?, hstart]
  cases hfirst : predicates joiner index tokens <;>
    cases hsecond : predicates .and index tokens <;> simp_all

theorem predicates_concat_joiner (last : Joiner) :
    predicates joiner index (tokens ++ [.joiner last]) = predicates joiner index tokens := by
  fun_induction predicates joiner index tokens <;> simp_all [predicates]

theorem predicates_append_joiner_joiner {first second : Joiner} {before after : List SearchToken} :
    predicates joiner index (before ++ .joiner first :: .joiner second :: after) =
      predicates joiner index (before ++ .joiner second :: after) := by
  fun_induction predicates joiner index before <;> simp_all [predicates]

theorem predicates_eq_nil_iff :
    predicates joiner index tokens = [] ↔ ∀ token ∈ tokens, token.isJoiner := by
  fun_induction predicates joiner index tokens <;> simp_all [SearchToken.isJoiner]

end Condition

namespace Asked

/-- A filter means something unless there are only joiners. -/
theorem formula?_eq_none_iff {asked : Asked} {index : Nat} :
    asked.formula? index = none ↔ ∀ token ∈ asked.tokens, token.isJoiner := by
  rw [Condition.formula?_eq, Option.map_eq_none_iff, ← Condition.predicates_eq_nil_iff,
    Condition.ofTokens?]
  cases Condition.predicates .and index asked.tokens <;> simp

theorem formulas_eq_nil_iff (asked : List Asked) (index : Nat) :
    formulas index asked = [] ↔ ∀ filter ∈ asked, ∀ token ∈ filter.tokens, token.isJoiner := by
  induction asked generalizing index with
  | nil => simp [formulas]
  | cons filter asked ih =>
    rw [formulas_cons, List.append_eq_nil_iff, ih, List.forall_mem_cons, ← formula?_eq_none_iff]
    cases filter.formula? index <;> simp

/-- Joiners before the first term, after the last one, and before another joiner have no
    effect. -/
theorem formula?_joiner (ref : ColumnRef) (index : Nat) (joiner : Joiner) :
    (∀ tokens, formula? ⟨ref, .joiner joiner :: tokens⟩ index = formula? ⟨ref, tokens⟩ index) ∧
      (∀ tokens, formula? ⟨ref, tokens ++ [.joiner joiner]⟩ index =
        formula? ⟨ref, tokens⟩ index) ∧
      ∀ before next after,
        formula? ⟨ref, before ++ .joiner joiner :: .joiner next :: after⟩ index =
          formula? ⟨ref, before ++ .joiner next :: after⟩ index := by
  refine ⟨fun tokens => ?_, fun tokens => ?_, fun before next after => ?_⟩
  · rw [Condition.formula?_eq, Condition.formula?_eq, Condition.ofTokens?_joiner_cons]
  · rw [Condition.formula?_eq, Condition.formula?_eq, Condition.ofTokens?, Condition.ofTokens?,
      Condition.predicates_concat_joiner]
  · rw [Condition.formula?_eq, Condition.formula?_eq, Condition.ofTokens?, Condition.ofTokens?,
      Condition.predicates_append_joiner_joiner]

end Asked

/-! ## Every compiled request -/

namespace BrowseQuery

variable {request : BrowseRequest} {columns : List TrackedColumn} {foreignKeys : List ForeignKey}
  {pageSize : Int} {query : BrowseQuery}

/-- The clause in the text of a compiled query is the conjunction of what the filters mean
    that stand for something and ask for something, in the order of the request. There is
    no clause if and only if no filter that stands for something has a term. Joiners that
    no term comes before or after, or another joiner comes after, have no effect. -/
theorem parse_clause (hquery : compile request columns foreignKeys pageSize = .ok query) :
    let asked := (JoinPlan.ofColumns request.table columns foreignKeys).resolved request.filters
    (∃ tokens, Sql.tokens? query.text.toList = some tokens ∧
      (Sql.whereClause? tokens).map Formula.parse =
        (Formula.all (Asked.formulas 1 asked)).map some ∧
      (Sql.whereClause? tokens = none ↔
        ∀ filter ∈ asked, ∀ token ∈ filter.tokens, token.isJoiner)) ∧
    ∀ ref index joiner,
      (∀ tokens, Asked.formula? ⟨ref, .joiner joiner :: tokens⟩ index =
        Asked.formula? ⟨ref, tokens⟩ index) ∧
      (∀ tokens, Asked.formula? ⟨ref, tokens ++ [.joiner joiner]⟩ index =
        Asked.formula? ⟨ref, tokens⟩ index) ∧
      ∀ before next after,
        Asked.formula? ⟨ref, before ++ .joiner joiner :: .joiner next :: after⟩ index =
          Asked.formula? ⟨ref, before ++ .joiner next :: after⟩ index := by
  intro asked
  obtain ⟨hplan, hfilters, -⟩ := statement_of_compile hquery
  have hformulas : query.statement.filters.map Filter.formula = Asked.formulas 1 asked := by
    rw [hfilters, map_formula_filters, hplan]
  have hclause := query.statement.whereClause?_tokens
  refine ⟨⟨query.statement.sql.tokens, query.statement.delimited_sql.tokens_eq, ?_, ?_⟩,
    Asked.formula?_joiner⟩
  · rw [hclause, ← hformulas]
    cases hnone : query.statement.filters with
    | nil => rfl
    | cons filter filters =>
      have hparse := query.statement.parse_asked (by simp [hnone])
      rw [hnone] at hparse
      exact congrArg some hparse
  · rw [hclause, ← Asked.formulas_eq_nil_iff _ 1, ← hformulas, List.map_eq_nil_iff]
    cases query.statement.filters <;> simp

/-- The first filter makes two groups, with joiners to spare. The others ask for nothing,
    for every value, and for one that is not empty. -/
theorem parse_clause_grouped :
    let title := fun test => Formula.atom (.column ⟨"books", "title"⟩ test)
    let isbn := fun test => Formula.atom (.column ⟨"books", "isbn"⟩ test)
    ∃ query,
      compile ⟨"books", [("title", "AND red OR AND blue OR '' green OR"), ("isbn", "and or"),
          ("isbn", "*"), ("isbn", "!=''")], some "title", .ascending, 0⟩
        [⟨1, 1, 1, "title", "text"⟩, ⟨2, 1, 2, "isbn", "text"⟩] [] 50 = .ok query ∧
      ∃ tokens, Sql.tokens? query.text.toList = some tokens ∧
        (Sql.whereClause? tokens).map Formula.parse = some (some (.and (.and
          (.or (.and (title (.like 1)) (title (.like 2)))
            (.and (.or (title .isNull) (title (.equal ""))) (title (.like 3))))
          (.atom .always))
          (.and (isbn .isNotNull) (isbn (.differ ""))))) := by
  intro title isbn
  refine Exists.imp (fun query hquery => ⟨hquery, ?_⟩) ⟨_, rfl⟩
  obtain ⟨⟨tokens, htokens, hparse, -⟩, -⟩ := parse_clause hquery
  exact ⟨tokens, htokens, hparse.trans (by decide +kernel)⟩

end BrowseQuery

end ShadowCatalog
