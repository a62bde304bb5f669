import ShadowCatalog.Proofs.Browse.JoinPlan
import ShadowCatalog.Proofs.Browse.Mentions

/-!
# Which browse requests are answered

A request is *refused* if its offset is negative, and otherwise if its sort column is
not *known*: neither a column of the table nor shown as a label. Filters have no part in
this (`BrowseRequest.Refused`). A filter of an unknown name is ignored, and reported in
the order of the request. It leaves no other trace, since it neither makes a condition
nor takes a placeholder from those that come after it (`BrowseQuery.filters_filter`).

Filters that are added to a request come last. So the conditions of the request stay
where they are, with the placeholders and values that they have (`BrowseQuery.Continues`).

All of this is `BrowseQuery.compile_answers`.
-/

namespace ShadowCatalog

/-! ## Names that are known -/

namespace BrowseRequest

variable (request : BrowseRequest) (columns : List TrackedColumn) (foreignKeys : List ForeignKey)

/-- The name is that of a column of the table, or a label is shown under it. -/
def Known (name : String) : Prop :=
  name ∈ columns.map (·.name) ∨
    name ∈ (JoinPlan.ofColumns request.table columns foreignKeys).labelJoins.map (·.output)

instance : DecidablePred (request.Known columns foreignKeys) := fun _ =>
  inferInstanceAs (Decidable (_ ∨ _))

/-- The request is refused for this reason. -/
inductive Refused : ValidationError → Prop
  | offset : request.offset < 0 → Refused (.invalidValue "offset" "must not be negative")
  | sortColumn {name : String} :
    0 ≤ request.offset → request.sortColumn = some name →
      ¬ request.Known columns foreignKeys name → Refused (.unknownSortColumn request.table name)

variable {request columns foreignKeys} {name : String}

/-- A name is known if and only if it stands for something. -/
theorem known_iff :
    request.Known columns foreignKeys name ↔
      ((JoinPlan.ofColumns request.table columns foreignKeys).resolve? name).isSome := by
  have hcolumns : (JoinPlan.ofColumns request.table columns foreignKeys).columns.map (·.column) =
      columns := JoinPlan.map_column_columns
  rw [← not_iff_not, Option.not_isSome_iff_eq_none, JoinPlan.resolve?_eq_none_iff,
    JoinPlan.mem_outputs, Known, List.mem_map, List.mem_map]
  nth_rewrite 1 [← hcolumns]
  simp

end BrowseRequest

/-! ## The text of a statement -/

/-- The clause that asks for all of these conditions. -/
def whereText (conditions : List String) : String :=
  if conditions.isEmpty then "" else " WHERE " ++ " AND ".intercalate conditions

namespace Sql

theorem text_append (sql sql' : Sql) : text (sql ++ sql') = sql.text ++ sql'.text := by
  rw [text, List.flatMap_append, String.ofList_append, text, text]

theorem text_fixed_cons (fixed : String) (sql : Sql) :
    text (.fixed fixed :: sql) = fixed ++ sql.text := by
  rw [text, List.flatMap_cons, String.ofList_append, Fragment.chars, String.ofList_toList, text]

theorem text_separated (separator : String) (parts : List Sql) :
    (separated separator parts).text = separator.intercalate (parts.map text) := by
  fun_induction separated separator parts with
  | case1 => rfl
  | case2 part => simp
  | case3 part parts hparts ih =>
    obtain ⟨next, later, rfl⟩ := List.exists_cons_of_ne_nil hparts
    rw [text_append, text_fixed_cons, ih]
    simp [String.append_assoc]

end Sql

namespace Statement

variable (statement : Statement)

/-- The conditions, as they are written. -/
def conditions : List String := statement.filters.map (·.sql.text)

theorem text_sql : statement.sql.text =
    statement.source.text ++ whereText statement.conditions ++ statement.arrangement.text := by
  rw [sql_eq, Sql.text_append, Sql.text_append, String.append_assoc, whereText, conditions,
    List.isEmpty_map]
  split
  · rfl
  · rw [Sql.text_fixed_cons, asked, Sql.text_separated, List.map_map]
    rfl

end Statement

namespace BrowseQuery

/-- The numbers of the placeholders in the text of a query, as they are read. -/
def placeholders? (query : BrowseQuery) : Option (List Nat) :=
  (Sql.read query.text.toList).map (·.filterMap Mention.placeholder?)

/-- Another query goes on where the conditions of this one end, and agrees with it
    before and after. -/
structure Continues (query longer : BrowseQuery) : Prop where
  text : ∃ source arrangement,
    query.text = source ++ whereText query.statement.conditions ++ arrangement ∧
      longer.text = source ++ whereText longer.statement.conditions ++ arrangement
  conditions : query.statement.conditions <+: longer.statement.conditions
  placeholders : ∃ numbers others,
    query.placeholders? = some numbers ∧ longer.placeholders? = some (numbers ++ others)
  binds : query.binds <+: longer.binds

theorem placeholders?_eq (query : BrowseQuery) :
    query.placeholders? = some (query.statement.filters.flatMap (·.sql.placeholders)) := by
  rw [placeholders?, text, query.statement.spaced_sql.read_eq, ← Statement.placeholders_sql]
  rfl

/-! ## Filters that are ignored, and filters that are added -/

variable {plan : JoinPlan} {index : Nat} {requested : List (String × String)}
  {known : String → Prop} [DecidablePred known]

/-- Filters that stand for nothing make no difference to the others. -/
theorem filters_filter (hknown : ∀ name, known name ↔ (plan.resolve? name).isSome) :
    filters plan index (requested.filter (known ·.1)) = filters plan index requested := by
  fun_induction filters plan index requested <;> simp_all [filters]

theorem ignored_eq (hknown : ∀ name, known name ↔ (plan.resolve? name).isSome) :
    ignored plan requested = (requested.map (·.1)).filter (¬ known ·) := by
  refine List.filter_congr fun name _ => ?_
  cases hname : plan.resolve? name <;> simp [hknown, hname]

/-- Filters that are added leave those before them as they are. -/
theorem filters_append (later : List (String × String)) :
    filters plan index requested <+: filters plan index (requested ++ later) := by
  fun_induction filters plan index requested <;> simp_all [filters]

/-! ## Requests that are refused, and requests that are answered -/

section

variable (request : BrowseRequest) (columns : List TrackedColumn) (foreignKeys : List ForeignKey)
  (pageSize : Int)

/-- The answer to a request that is not refused, the rows being sorted in this way. -/
def answer (sorted : Option (ColumnRef × SortOrder)) : BrowseQuery :=
  let plan := JoinPlan.ofColumns request.table columns foreignKeys
  { statement := ⟨plan, filters plan 1 request.filters, sorted, pageSize, request.offset⟩
    pageSize
    ignoredFilters := ignored plan request.filters }

theorem compile_of_neg (hoffset : request.offset < 0) :
    compile request columns foreignKeys pageSize =
      .error (.invalidValue "offset" "must not be negative") := by
  rw [compile, BrowseRequest.checkOffset, if_pos hoffset]
  rfl

theorem compile_of_nonneg (hoffset : 0 ≤ request.offset) :
    compile request columns foreignKeys pageSize =
      (sort (.ofColumns request.table columns foreignKeys) request).map
        (answer request columns foreignKeys pageSize) := by
  rw [compile, BrowseRequest.checkOffset, if_neg (Int.not_lt.2 hoffset)]
  cases hsort : sort (.ofColumns request.table columns foreignKeys) request <;>
    simp [hsort, bind, Except.bind, pure, Except.pure, Except.map, answer]

variable {request columns foreignKeys pageSize}

/-- An answer to a request whose offset is not negative is what it is compiled to. -/
theorem compile_eq_ok {sorted : Option (ColumnRef × SortOrder)} (hoffset : 0 ≤ request.offset)
    (hsort : sort (.ofColumns request.table columns foreignKeys) request = .ok sorted) :
    compile request columns foreignKeys pageSize =
      .ok (answer request columns foreignKeys pageSize sorted) := by
  rw [compile_of_nonneg _ _ _ _ hoffset, hsort]
  rfl

theorem of_compile_eq_ok {query : BrowseQuery}
    (hquery : compile request columns foreignKeys pageSize = .ok query) :
    0 ≤ request.offset ∧ ∃ sorted,
      sort (.ofColumns request.table columns foreignKeys) request = .ok sorted ∧
        query = answer request columns foreignKeys pageSize sorted := by
  rcases Int.lt_or_le request.offset 0 with hneg | hoffset
  · rw [compile_of_neg _ _ _ _ hneg] at hquery
    cases hquery
  · rw [compile_of_nonneg _ _ _ _ hoffset] at hquery
    cases hsort : sort (.ofColumns request.table columns foreignKeys) request with
    | error cause =>
      rw [hsort] at hquery
      cases hquery
    | ok sorted =>
      rw [hsort] at hquery
      exact ⟨hoffset, sorted, rfl, (Except.ok.inj hquery).symm⟩

/-- Sorting is refused if the sort column is not known, and for no other reason. -/
theorem sort_eq_error_iff {cause : ValidationError} :
    sort (.ofColumns request.table columns foreignKeys) request = .error cause ↔
      ∃ name, request.sortColumn = some name ∧ ¬ request.Known columns foreignKeys name ∧
        cause = .unknownSortColumn request.table name := by
  rw [sort]
  cases request.sortColumn with
  | none => simp
  | some name =>
    have hknown : request.Known columns foreignKeys name ↔ _ := BrowseRequest.known_iff
    cases hname : (JoinPlan.ofColumns request.table columns foreignKeys).resolve? name with
    | none => simpa [hknown, hname] using eq_comm
    | some ref => simp [hknown, hname]

theorem compile_eq_error_iff {cause : ValidationError} :
    compile request columns foreignKeys pageSize = .error cause ↔
      request.Refused columns foreignKeys cause := by
  constructor
  · intro hcompile
    rcases Int.lt_or_le request.offset 0 with hneg | hoffset
    · rw [compile_of_neg _ _ _ _ hneg] at hcompile
      cases hcompile
      exact .offset hneg
    · rw [compile_of_nonneg _ _ _ _ hoffset] at hcompile
      cases hsort : sort (.ofColumns request.table columns foreignKeys) request with
      | error cause' =>
        rw [hsort] at hcompile
        cases hcompile
        obtain ⟨name, hname, hunknown, rfl⟩ := sort_eq_error_iff.1 hsort
        exact .sortColumn hoffset hname hunknown
      | ok sorted =>
        rw [hsort] at hcompile
        cases hcompile
  · intro hrefused
    cases hrefused with
    | offset hneg => exact compile_of_neg _ _ _ _ hneg
    | sortColumn hoffset hname hunknown =>
      rw [compile_of_nonneg _ _ _ _ hoffset, sort_eq_error_iff.2 ⟨_, hname, hunknown, rfl⟩]
      rfl

/-- A request with more filters has the answer of the request without them, and more
    conditions. -/
theorem continues_answer (later : List (String × String))
    (sorted : Option (ColumnRef × SortOrder)) :
    (answer request columns foreignKeys pageSize sorted).Continues
      (answer { request with filters := request.filters ++ later } columns foreignKeys pageSize
        sorted) := by
  obtain ⟨more, hmore⟩ :
      filters (.ofColumns request.table columns foreignKeys) 1 request.filters <+:
        filters (.ofColumns request.table columns foreignKeys) 1 (request.filters ++ later) :=
    filters_append later
  refine ⟨⟨_, _, Statement.text_sql _, Statement.text_sql _⟩, ?_, ?_, ?_⟩
  · exact ⟨more.map (·.sql.text), by simp [Statement.conditions, answer, ← hmore]⟩
  · exact ⟨_, more.flatMap (·.sql.placeholders), placeholders?_eq _,
      by simp [placeholders?_eq, answer, ← hmore]⟩
  · exact ⟨more.flatMap (·.condition.binds), by simp [binds, Statement.binds, answer, ← hmore]⟩

end

/-- A request is answered unless its offset is negative or its sort column is unknown,
    whatever its filters are. The filters that are ignored are those of unknown names, and
    the answer is the same without them. With more filters, the answer goes on where the
    conditions end. -/
theorem compile_answers (request : BrowseRequest) (columns : List TrackedColumn)
    (foreignKeys : List ForeignKey) (pageSize : Int) :
    (∀ cause, compile request columns foreignKeys pageSize = .error cause ↔
      request.Refused columns foreignKeys cause) ∧
    (∀ filters cause,
      compile { request with filters } columns foreignKeys pageSize = .error cause ↔
        compile request columns foreignKeys pageSize = .error cause) ∧
    ∀ query, compile request columns foreignKeys pageSize = .ok query →
      query.ignoredFilters =
        (request.filters.map (·.1)).filter (¬ request.Known columns foreignKeys ·) ∧
      (∃ shorter,
        compile { request with
          filters := request.filters.filter (request.Known columns foreignKeys ·.1) }
          columns foreignKeys pageSize = .ok shorter ∧
        shorter.text = query.text ∧ shorter.binds = query.binds ∧
        shorter.columnMeta = query.columnMeta ∧ shorter.pageSize = query.pageSize ∧
        shorter.ignoredFilters = []) ∧
      ∀ later, ∃ longer,
        compile { request with filters := request.filters ++ later } columns foreignKeys pageSize =
          .ok longer ∧ query.Continues longer := by
  refine ⟨fun cause => compile_eq_error_iff, fun filters cause => ?_, fun query hquery => ?_⟩
  · rw [compile_eq_error_iff, compile_eq_error_iff]
    constructor <;> rintro (hneg | ⟨hoffset, hname, hunknown⟩)
    · exact .offset hneg
    · exact .sortColumn hoffset hname hunknown
    · exact .offset hneg
    · exact .sortColumn hoffset hname hunknown
  · obtain ⟨hoffset, sorted, hsort, rfl⟩ := of_compile_eq_ok hquery
    have hknown (name : String) : request.Known columns foreignKeys name ↔ _ :=
      BrowseRequest.known_iff
    refine ⟨ignored_eq hknown, ⟨_, compile_eq_ok hoffset hsort, ?_, ?_, rfl, rfl, ?_⟩,
      fun later => ⟨_, compile_eq_ok hoffset hsort, continues_answer later sorted⟩⟩
    · simp only [text, answer, filters_filter hknown]
    · simp only [binds, answer, filters_filter hknown]
    · rw [answer, ignored_eq hknown]
      simp

/-- The second and the fourth filter are of an unknown name. The fifth one asks for nothing,
    but it is not ignored. -/
theorem compile_answers_mixed :
    let request : BrowseRequest :=
      ⟨"books", [("title", "red !=blue"), ("colour", "x"), ("owner_name", "ann"), ("colour", ""),
        ("title", "and")], some "owner_name", .descending, 0⟩
    let columns : List TrackedColumn :=
      [⟨1, 1, 1, "title", "text"⟩, ⟨2, 1, 2, "owner_id", "integer"⟩]
    let foreignKeys : List ForeignKey :=
      [⟨"books", "owner_id", "people", "id", some ⟨"name", "text"⟩⟩]
    ∃ query, compile request columns foreignKeys 50 = .ok query ∧
      query.ignoredFilters = ["colour", "colour"] ∧
      ∃ longer,
        compile { request with filters := request.filters ++ [("title", "green")] } columns
          foreignKeys 50 = .ok longer ∧ query.Continues longer := by
  intro request columns foreignKeys
  obtain ⟨hrefused, -, hanswered⟩ := compile_answers request columns foreignKeys 50
  cases hcompile : compile request columns foreignKeys 50 with
  | error cause =>
    cases (hrefused cause).1 hcompile with
    | offset hneg => exact absurd hneg (by decide)
    | sortColumn hoffset hname hunknown =>
      cases hname
      exact absurd (by decide +kernel) hunknown
  | ok query =>
    obtain ⟨hignored, -, hlater⟩ := hanswered query hcompile
    exact ⟨query, rfl, hignored.trans (by decide +kernel), hlater [("title", "green")]⟩

end BrowseQuery

end ShadowCatalog
