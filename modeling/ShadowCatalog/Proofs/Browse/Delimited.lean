import ShadowCatalog.Browse.Query
import ShadowCatalog.Proofs.Sql.Token

/-!
# Browse statements are delimited

Between any two names, numbers and parameters of a browse statement stands fixed text,
and no fixed text goes on with a word or sign of another (`Statement.delimited_sql`). So
a server finds in the text what the fragments are, and nothing else.

The parts of a statement are *plain*: the words by which its clauses begin are not among
theirs. They stand between the parts only.
-/

namespace ShadowCatalog

open Sql

/-- The word begins a clause after `FROM`. -/
def SqlToken.beginsClause (token : SqlToken) : Bool :=
  token = .word "WHERE" || token = .word "ORDER" || token = .word "LIMIT"

/-- A fragment in which no clause begins. If it is fixed text, it is a space. -/
def IsPlain (fragment : Fragment) : Prop :=
  IsSpaced fragment ∧ ∀ token ∈ fragment.tokens, token.beginsClause = false

instance : DecidablePred IsPlain := fun fragment =>
  inferInstanceAs (Decidable (IsSpaced fragment ∧
    ∀ token ∈ fragment.tokens, token.beginsClause = false))

theorem isPlain_name (name : String) : IsPlain (.name name) :=
  ⟨trivial, by simp [SqlToken.beginsClause]⟩

theorem isPlain_parameter (index : Nat) : IsPlain (.parameter index) :=
  ⟨trivial, by simp [SqlToken.beginsClause]⟩

theorem isPlain_joiner (joiner : Joiner) :
    IsPlain (.fixed (" " ++ joiner.word ++ " ")) ∧ Begins (" " ++ joiner.word ++ " ") ∧
      Ends (" " ++ joiner.word ++ " ") := by
  cases joiner <;> decide

/-- No clause begins in a plain statement. -/
theorem Sql.Delimited.beginsClause_eq_false {sql : Sql} (h : Delimited IsPlain sql) :
    ∀ token ∈ sql.tokens, token.beginsClause = false := by
  intro token htoken
  obtain ⟨fragment, hfragment, htoken⟩ := List.mem_flatMap.1 htoken
  exact (h.allowed fragment hfragment).2 token htoken

theorem Sql.Delimited.of_plain {sql : Sql} (h : Delimited IsPlain sql) : Delimited IsSpaced sql :=
  h.mono fun _ hplain => hplain.1

/-! ## The parts of a statement -/

theorem ColumnRef.delimited_sql (ref : ColumnRef) : Delimited IsPlain ref.sql :=
  .join (.single (isPlain_name _)) (by decide) (.single (isPlain_name _))

/-- Fixed text may follow a column, whatever it begins with. -/
theorem ColumnRef.apart_fixed (ref : ColumnRef) (text : String) (after : Sql) :
    ∀ a ∈ ref.sql.getLast?, ∀ b ∈ (Fragment.fixed text :: after).head?, a.Apart b := by
  rintro a ⟨rfl⟩ b ⟨rfl⟩
  exact Fragment.apart_fixed_of_isMention rfl text

theorem Selected.delimited_sql (selected : Selected) : Delimited IsPlain selected.sql := by
  have hcast : Delimited IsPlain (selected.ref.sql ++
      if isNative selected.dataType then [] else [.fixed "::text"]) := by
    split
    · simpa using selected.ref.delimited_sql
    · exact selected.ref.delimited_sql.append (.single (by decide))
        (selected.ref.apart_fixed _ _)
  exact .join hcast (by decide) (.single (isPlain_name _))

theorem LabelJoin.delimited_sql {source : ColumnRef} (join : LabelJoin) :
    Delimited IsPlain (join.sql source) := by
  have htables : Delimited IsPlain [.fixed "LEFT JOIN ", .name join.foreignKey.referencedTable,
      .fixed " AS ", .name join.qualifier] :=
    .cons (by decide) (.join (.single (isPlain_name _)) (by decide) (.single (isPlain_name _)))
  have hon : Delimited IsPlain ([.fixed "LEFT JOIN ", .name join.foreignKey.referencedTable,
      .fixed " AS ", .name join.qualifier] ++ .fixed " ON " :: source.sql) :=
    .join htables (by decide) source.delimited_sql
  exact .join hon (by decide) (ColumnRef.delimited_sql _)

theorem Predicate.delimited_sql (ref : ColumnRef) (predicate : Predicate) :
    Delimited IsPlain (predicate.sql ref.sql) := by
  have hopen : Delimited IsPlain (.fixed "(" :: ref.sql) := .cons (by decide) ref.delimited_sql
  have hempty : Delimited IsPlain [.emptyText, .fixed ")"] :=
    .concat (.single (by decide)) (by decide)
  cases predicate with
  | always => exact .single (by decide)
  | blank => exact .join (.join hopen (by decide) ref.delimited_sql) (by decide) hempty
  | present => exact .join (.join hopen (by decide) ref.delimited_sql) (by decide) hempty
  | matching index pattern =>
    exact ref.delimited_sql.append (.cons (by decide) (.single (isPlain_parameter index)))
      (ref.apart_fixed _ _)
  | differing index pattern =>
    exact ref.delimited_sql.append (.cons (by decide) (.single (isPlain_parameter index)))
      (ref.apart_fixed _ _)

theorem Condition.delimited_sql (ref : ColumnRef) (condition : Condition) :
    Delimited IsPlain (condition.sql ref.sql) := by
  have hfirst : Delimited IsPlain (.fixed "(" :: condition.first.sql ref.sql) :=
    .cons (by decide) (condition.first.delimited_sql ref)
  exact .concat (hfirst.append_flatMap (fun other _ => isPlain_joiner other.1)
    fun other _ => other.2.delimited_sql ref) (by decide)

namespace Statement

variable (statement : Statement)

/-- What is shown, and of which tables. -/
def source : Sql :=
  .fixed "SELECT " :: Sql.separated ", " (statement.plan.selected.map Selected.sql) ++
    [.fixed " FROM ", .name statement.plan.table] ++
    statement.plan.joins.flatMap (.fixed " " :: ·)

/-- What is asked of the rows. -/
def asked : Sql := Sql.separated " AND " (statement.filters.map Filter.sql)

/-- The order of the rows, and the page of them. -/
def arrangement : Sql :=
  (match statement.sort with
    | none => []
    | some (ref, order) => .fixed " ORDER BY " :: ref.sql ++ [.fixed (" " ++ order.word)]) ++
    [.fixed " LIMIT ", .number statement.limit, .fixed " OFFSET ", .number statement.offset]

theorem sql_eq :
    statement.sql = statement.source ++
      ((if statement.filters.isEmpty then [] else .fixed " WHERE " :: statement.asked) ++
        statement.arrangement) :=
  (List.append_assoc _ _ _).trans (List.append_assoc _ _ _)

theorem delimited_source : Delimited IsPlain statement.source := by
  have hselect : Delimited IsPlain (.fixed "SELECT " ::
      Sql.separated ", " (statement.plan.selected.map Selected.sql)) := by
    refine .cons (by decide) (.separated (by decide) fun part hpart => ?_)
    obtain ⟨selected, -, rfl⟩ := List.mem_map.mp hpart
    exact selected.delimited_sql
  have hfrom : Delimited IsPlain (.fixed "SELECT " ::
      Sql.separated ", " (statement.plan.selected.map Selected.sql) ++
      [.fixed " FROM ", .name statement.plan.table]) :=
    .join hselect (by decide) (.single (isPlain_name _))
  refine hfrom.append_flatMap (fun _ _ => by decide) fun part hpart => ?_
  obtain ⟨planned, -, hplanned⟩ := List.mem_filterMap.mp hpart
  obtain ⟨join, -, rfl⟩ := Option.map_eq_some_iff.mp hplanned
  exact join.delimited_sql

theorem delimited_asked : Delimited IsPlain statement.asked := by
  refine .separated (by decide) fun part hpart => ?_
  obtain ⟨filter, -, rfl⟩ := List.mem_map.mp hpart
  exact filter.condition.delimited_sql filter.ref

theorem delimited_arrangement : Delimited IsSpaced statement.arrangement := by
  obtain ⟨plan, filters, sort, limit, offset⟩ := statement
  have hpage : Delimited IsSpaced [.number limit, .fixed " OFFSET ", .number offset] :=
    .join (.single trivial) (by decide) (.single trivial)
  cases sort with
  | none => exact .cons (by decide) hpage
  | some sort =>
    obtain ⟨ref, order⟩ := sort
    have hword : IsSpaced (.fixed (" " ++ order.word)) ∧ Begins (" " ++ order.word) := by
      cases order <;> decide
    exact .join (.concat (.cons (by decide) ref.delimited_sql.of_plain) hword) (by decide) hpage

/-- The clauses after what is asked of the rows begin with a word of their own. -/
theorem arrangement_eq_cons : ∃ text later, statement.arrangement = .fixed text :: later ∧
    (text = " ORDER BY " ∨ text = " LIMIT ") := by
  obtain ⟨plan, filters, sort, limit, offset⟩ := statement
  cases sort with
  | none => exact ⟨_, _, rfl, .inr rfl⟩
  | some sort => exact ⟨_, _, rfl, .inl rfl⟩

/-- In the text of a statement no fragment runs into another. -/
theorem delimited_sql : Delimited IsSpaced statement.sql := by
  obtain ⟨text, later, harrangement, htext⟩ := statement.arrangement_eq_cons
  have hbegins : Begins text := by rcases htext with rfl | rfl <;> decide
  have hafter (before : Sql) :
      ∀ a ∈ before.getLast?, ∀ b ∈ statement.arrangement.head?, a.Apart b := by
    rintro a - b hb
    obtain rfl : .fixed text = b := by simpa [harrangement] using hb
    exact hbegins.apart a
  rw [sql_eq]
  split
  · exact statement.delimited_source.of_plain.append statement.delimited_arrangement (hafter _)
  · exact .join statement.delimited_source.of_plain (by decide)
      (statement.delimited_asked.of_plain.append statement.delimited_arrangement (hafter _))

/-- So its text can be read back. -/
theorem spaced_sql : Spaced statement.sql := statement.delimited_sql.spaced

end Statement

end ShadowCatalog
