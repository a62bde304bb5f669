import ShadowCatalog.Browse.JoinPlan
import ShadowCatalog.Proofs.Sql.Token
import ShadowCatalog.Search.Token

/-!
# Formulas in a statement

What stands between `WHERE` and `ORDER BY` or `LIMIT` is a *formula*: comparisons of
columns, joined by `AND` and `OR` and grouped by parentheses, where `AND` binds tighter
than `OR` and both associate to the left. It is read token by token
(`FormulaReader.step`). On each level of parentheses a reader keeps three things: the
groups before the present one, joined by `OR`; the operands of the present group, joined
by `AND`; and the operand that it is in.

What a row of operands comes to is told without a reader, too. It is cut before each
operand that is joined by `OR`, and comes to the disjunction over the groups of the
conjunctions over their operands (`Formula.any_groups_eq`).
-/

namespace ShadowCatalog

/-! ## Formulas -/

/-- What is asked of a column. -/
inductive Test
  | isNull
  | isNotNull
  | equal (text : String)
  | differ (text : String)
  /-- Its text matches the pattern bound to a placeholder. -/
  | like (index : Nat)
  | notLike (index : Nat)
  deriving DecidableEq, Repr

/-- A comparison. -/
inductive Comparison
  | always
  | column (ref : ColumnRef) (test : Test)
  deriving DecidableEq, Repr

/-- A formula. -/
inductive Formula
  | atom (comparison : Comparison)
  | and (left right : Formula)
  | or (left right : Formula)
  deriving DecidableEq, Repr

namespace Formula

/-- The conjunction of formulas, if there are any. -/
def all : List Formula → Option Formula
  | [] => none
  | formula :: formulas => some (formulas.foldl .and formula)

/-- The disjunction of formulas, if there are any. -/
def any : List Formula → Option Formula
  | [] => none
  | formula :: formulas => some (formulas.foldl .or formula)

/-- The formula after others, if there are any, joined by `AND`. -/
def andAfter : Option Formula → Formula → Formula
  | none, formula => formula
  | some before, formula => .and before formula

/-- The formula after others, if there are any, joined by `OR`. -/
def orAfter : Option Formula → Formula → Formula
  | none, formula => formula
  | some before, formula => .or before formula

end Formula

/-! ## Reading a formula -/

/-- The test that tokens make. -/
def Test.ofTokens? : List SqlToken → Option Test
  | [.word "IS", .word "NULL"] => some .isNull
  | [.word "IS", .word "NOT", .word "NULL"] => some .isNotNull
  | [.word "=", .mention (.literal text)] => some (.equal text)
  | [.word "<>", .mention (.literal text)] => some (.differ text)
  | [.word "::", .word "text", .word "ILIKE", .mention (.placeholder index)] => some (.like index)
  | [.word "::", .word "text", .word "NOT", .word "ILIKE", .mention (.placeholder index)] =>
    some (.notLike index)
  | _ => none

/-- The comparison that tokens make. -/
def Comparison.ofTokens? : List SqlToken → Option Comparison
  | [.word "TRUE"] => some .always
  | .mention (.name qualifier) :: .word "." :: .mention (.name name) :: test =>
    (Test.ofTokens? test).map (.column ⟨qualifier, name⟩)
  | _ => none

/-- The operand that a reader of a formula is in. -/
inductive Operand
  /-- The tokens of a comparison so far. -/
  | tokens (tokens : List SqlToken)
  /-- What stood between parentheses. -/
  | formula (formula : Formula)
  deriving DecidableEq, Repr

/-- The operand as a formula, if it is complete. -/
def Operand.formula? : Operand → Option Formula
  | .tokens read => (Comparison.ofTokens? read).map .atom
  | .formula read => some read

/-- A level of parentheses. -/
structure Level where
  /-- The groups before the present one. -/
  groups : Option Formula := none
  /-- The operands of the present group before the one that the reader is in. -/
  operands : Option Formula := none
  operand : Operand := .tokens []
  deriving DecidableEq, Repr

namespace Level

variable (level : Level)

/-- The present group. -/
def group? : Option Formula := level.operand.formula?.map (.andAfter level.operands)

/-- All groups. -/
def formula? : Option Formula := level.group?.map (.orAfter level.groups)

end Level

/-- A reader of a formula. -/
structure FormulaReader where
  level : Level
  /-- The levels around, innermost first. -/
  outer : List Level
  deriving DecidableEq, Repr

namespace FormulaReader

/-- The reader after one more token. -/
def step (reader : FormulaReader) (token : SqlToken) : Option FormulaReader :=
  if token = .word "(" then
    if reader.level.operand = .tokens [] then some ⟨{}, reader.level :: reader.outer⟩ else none
  else if token = .word ")" then
    match reader.outer with
    | [] => none
    | level :: outer =>
      reader.level.formula?.map fun formula => ⟨{ level with operand := .formula formula }, outer⟩
  else if token = .word "AND" then
    reader.level.group?.map fun group =>
      { reader with level := ⟨reader.level.groups, some group, .tokens []⟩ }
  else if token = .word "OR" then
    reader.level.formula?.map fun formula =>
      { reader with level := ⟨some formula, none, .tokens []⟩ }
  else
    match reader.level.operand with
    | .tokens tokens =>
      some { reader with level := { reader.level with operand := .tokens (tokens ++ [token]) } }
    | .formula _ => none

end FormulaReader

/-- The formula that tokens make. -/
def Formula.parse (tokens : List SqlToken) : Option Formula :=
  (tokens.foldlM FormulaReader.step ⟨{}, []⟩).bind fun reader =>
    if reader.outer = [] then reader.level.formula? else none

/-! ## Operands and rows of them -/

open FormulaReader

/-- Where an operand is due, these tokens are one, and come to the formula. -/
def IsOperand (tokens : List SqlToken) (formula : Formula) : Prop :=
  ∀ groups operands outer, ∃ operand : Operand, operand.formula? = some formula ∧
    tokens.foldlM step ⟨⟨groups, operands, .tokens []⟩, outer⟩ =
      some ⟨⟨groups, operands, operand⟩, outer⟩

/-- Where a level begins, these tokens come to the formula. -/
def IsFormula (tokens : List SqlToken) (formula : Formula) : Prop :=
  ∀ outer, ∃ level : Level, level.formula? = some formula ∧
    tokens.foldlM step ⟨{}, outer⟩ = some ⟨level, outer⟩

/-- The words and signs by which formulas are put together. -/
def SqlToken.isConnective (token : SqlToken) : Bool :=
  token = .word "(" || token = .word ")" || token = .word "AND" || token = .word "OR"

theorem IsFormula.parse_eq {tokens : List SqlToken} {formula : Formula}
    (h : IsFormula tokens formula) : Formula.parse tokens = some formula := by
  obtain ⟨level, hlevel, hread⟩ := h []
  rw [Formula.parse, hread, Option.bind_some, if_pos rfl, hlevel]

theorem foldlM_step_of_not_isConnective {tokens : List SqlToken}
    (htokens : ∀ token ∈ tokens, token.isConnective = false) (groups operands : Option Formula)
    (before : List SqlToken) (outer : List Level) :
    tokens.foldlM step ⟨⟨groups, operands, .tokens before⟩, outer⟩ =
      some ⟨⟨groups, operands, .tokens (before ++ tokens)⟩, outer⟩ := by
  induction tokens generalizing before with
  | nil => simp
  | cons token tokens ih =>
    rw [List.forall_mem_cons] at htokens
    have hstep : step ⟨⟨groups, operands, .tokens before⟩, outer⟩ token =
        some ⟨⟨groups, operands, .tokens (before ++ [token])⟩, outer⟩ := by
      have htoken := htokens.1
      simp only [SqlToken.isConnective, Bool.or_eq_false_iff, decide_eq_false_iff_not] at htoken
      simp [step, htoken]
    rw [List.foldlM_cons, hstep, Option.bind_eq_bind, Option.bind_some, ih htokens.2]
    simp

/-- A comparison is an operand. -/
theorem IsOperand.atom {tokens : List SqlToken} {comparison : Comparison}
    (hcomparison : Comparison.ofTokens? tokens = some comparison)
    (htokens : ∀ token ∈ tokens, token.isConnective = false) :
    IsOperand tokens (.atom comparison) := fun groups operands outer =>
  ⟨.tokens tokens, by rw [Operand.formula?, hcomparison]; rfl,
    foldlM_step_of_not_isConnective htokens groups operands [] outer⟩

/-- What stands between parentheses is an operand. -/
theorem IsFormula.isOperand {tokens : List SqlToken} {formula : Formula}
    (h : IsFormula tokens formula) :
    IsOperand (.word "(" :: (tokens ++ [.word ")"])) formula := fun groups operands outer => by
  obtain ⟨level, hlevel, hread⟩ := h (⟨groups, operands, .tokens []⟩ :: outer)
  refine ⟨.formula formula, rfl, ?_⟩
  have hopen : step ⟨⟨groups, operands, .tokens []⟩, outer⟩ (.word "(") =
      some ⟨{}, ⟨groups, operands, .tokens []⟩ :: outer⟩ := rfl
  have hclose : step ⟨level, ⟨groups, operands, .tokens []⟩ :: outer⟩ (.word ")") =
      some ⟨⟨groups, operands, .formula formula⟩, outer⟩ := by
    simp [step, hlevel]
  simp [List.foldlM_cons, List.foldlM_append, hopen, hread, hclose]

namespace Formula

/-- The groups before the present one, and the present group, after one more operand. -/
def advance (groups : Option Formula × Formula) : Joiner × Formula → Option Formula × Formula
  | (.and, formula) => (groups.1, .and groups.2 formula)
  | (.or, formula) => (some (.orAfter groups.1 groups.2), formula)

/-- What a row of operands comes to, each but the first with its joiner. -/
def row (first : Formula) (others : List (Joiner × Formula)) : Formula :=
  let groups := others.foldl advance (none, first)
  .orAfter groups.1 groups.2

end Formula

/-- A joiner and an operand after it go on with the row of the level. -/
theorem foldlM_step_joiner (joiner : Joiner) {tokens : List SqlToken} {formula : Formula}
    (hoperand : IsOperand tokens formula) {level : Level} {groups : Option Formula × Formula}
    (hgroups : level.groups = groups.1) (hgroup : level.group? = some groups.2)
    (outer : List Level) :
    ∃ next : Level, next.groups = (Formula.advance groups (joiner, formula)).1 ∧
      next.group? = some (Formula.advance groups (joiner, formula)).2 ∧
      (.word joiner.word :: tokens).foldlM step ⟨level, outer⟩ = some ⟨next, outer⟩ := by
  cases joiner with
  | and =>
    obtain ⟨operand, hformula, hread⟩ := hoperand level.groups (some groups.2) outer
    have hstep : step ⟨level, outer⟩ (.word Joiner.and.word) =
        some ⟨⟨level.groups, some groups.2, .tokens []⟩, outer⟩ := by
      simp [step, Joiner.word, hgroup]
    refine ⟨⟨level.groups, some groups.2, operand⟩, hgroups,
      by rw [Level.group?, hformula]; rfl, ?_⟩
    rw [List.foldlM_cons, hstep, Option.bind_eq_bind, Option.bind_some, hread]
  | or =>
    obtain ⟨operand, hformula, hread⟩ :=
      hoperand (some (.orAfter groups.1 groups.2)) none outer
    have hlevel : level.formula? = some (.orAfter groups.1 groups.2) := by
      rw [Level.formula?, hgroup, hgroups, Option.map_some]
    have hstep : step ⟨level, outer⟩ (.word Joiner.or.word) =
        some ⟨⟨some (.orAfter groups.1 groups.2), none, .tokens []⟩, outer⟩ := by
      simp [step, Joiner.word, hlevel]
    refine ⟨⟨some (.orAfter groups.1 groups.2), none, operand⟩, rfl,
      by rw [Level.group?, hformula]; rfl, ?_⟩
    rw [List.foldlM_cons, hstep, Option.bind_eq_bind, Option.bind_some, hread]

/-- A row of operands, each but the first after its joiner, is a formula. -/
theorem IsFormula.row {α : Type} {first : List SqlToken} {formula : Formula}
    (hfirst : IsOperand first formula) (others : List α) (joiner : α → Joiner)
    (tokens : α → List SqlToken) (formulas : α → Formula)
    (hothers : ∀ a ∈ others, IsOperand (tokens a) (formulas a)) :
    IsFormula (first ++ others.flatMap fun a => .word (joiner a).word :: tokens a)
      (.row formula (others.map fun a => (joiner a, formulas a))) := fun outer => by
  obtain ⟨operand, hoperand, hread⟩ := hfirst none none outer
  have hrow (level : Level) (groups : Option Formula × Formula) (hgroups : level.groups = groups.1)
      (hgroup : level.group? = some groups.2) :
      ∃ next : Level,
        next.formula? = some (.orAfter
          ((others.map fun a => (joiner a, formulas a)).foldl Formula.advance groups).1
          ((others.map fun a => (joiner a, formulas a)).foldl Formula.advance groups).2) ∧
        (others.flatMap fun a => .word (joiner a).word :: tokens a).foldlM step ⟨level, outer⟩ =
          some ⟨next, outer⟩ := by
    induction others generalizing level groups with
    | nil => exact ⟨level, by rw [Level.formula?, hgroup, hgroups]; rfl, rfl⟩
    | cons a others ih =>
      rw [List.forall_mem_cons] at hothers
      obtain ⟨next, hnext, hgroup, hstep⟩ :=
        foldlM_step_joiner (joiner a) hothers.1 hgroups hgroup outer
      obtain ⟨last, hlast, hread⟩ := ih hothers.2 next _ hnext hgroup
      refine ⟨last, hlast, ?_⟩
      rw [List.flatMap_cons, List.foldlM_append, hstep, Option.bind_eq_bind, Option.bind_some,
        hread]
  obtain ⟨level, hlevel, hreadothers⟩ := hrow ⟨none, none, operand⟩ (none, formula) rfl
    (by rw [Level.group?, hoperand]; rfl)
  refine ⟨level, hlevel, ?_⟩
  rw [List.foldlM_append]
  exact (congrArg (Option.bind · _) hread).trans hreadothers

/-! ## Groups -/

namespace Formula

theorem forall_mem_of_isChain {α : Type} {p : α → Prop} {first : α} {later : List α}
    (h : (first :: later).IsChain fun _ next => p next) : ∀ a ∈ later, p a := by
  induction later generalizing first with
  | nil => simp
  | cons next later ih =>
    rw [List.isChain_cons_cons] at h
    exact List.forall_mem_cons.2 ⟨h.1, ih h.2⟩

/-- Operands joined by `AND` go on with the present group. -/
theorem foldl_advance_of_and {others : List (Joiner × Formula)}
    (hothers : ∀ other ∈ others, other.1 = .and) (groups : Option Formula × Formula) :
    others.foldl advance groups = (groups.1, (others.map (·.2)).foldl .and groups.2) := by
  induction others generalizing groups with
  | nil => rfl
  | cons other others ih =>
    rw [List.forall_mem_cons] at hothers
    obtain ⟨joiner, formula⟩ := other
    obtain rfl : joiner = .and := hothers.1
    rw [List.foldl_cons, ih hothers.2]
    rfl

/-- The conjunction of the operands of a group. -/
def conjunction (group : List (Joiner × Formula)) : Option Formula := all (group.map (·.2))

/-- Operands that are one group: they are joined by `AND` to the first one. -/
def IsGroup (group : List (Joiner × Formula)) (joiner : Joiner) (formula : Formula) : Prop :=
  ∃ first later, group = (joiner, first) :: later ∧ (∀ other ∈ later, other.1 = .and) ∧
    formula = (later.map (·.2)).foldl .and first

theorem IsGroup.conjunction_eq {group : List (Joiner × Formula)} {joiner : Joiner}
    {formula : Formula} (h : IsGroup group joiner formula) :
    conjunction group = some formula := by
  obtain ⟨first, later, rfl, -, rfl⟩ := h
  rfl

/-- Each group that begins with `OR` adds its conjunction to the disjunction. -/
theorem orAfter_foldl_advance {groups : List (List (Joiner × Formula))}
    (hgroups : ∀ group ∈ groups, ∃ formula, IsGroup group .or formula)
    (before : Option Formula × Formula) :
    orAfter (groups.flatten.foldl advance before).1 (groups.flatten.foldl advance before).2 =
      (groups.filterMap conjunction).foldl .or (orAfter before.1 before.2) := by
  induction groups generalizing before with
  | nil => rfl
  | cons group groups ih =>
    rw [List.forall_mem_cons] at hgroups
    obtain ⟨formula, hgroup⟩ := hgroups.1
    rw [List.filterMap_cons_some hgroup.conjunction_eq]
    obtain ⟨first, later, rfl, hlater, rfl⟩ := hgroup
    rw [List.flatten_cons, List.foldl_append, ih hgroups.2, List.foldl_cons, List.foldl_cons,
      foldl_advance_of_and hlater]
    rfl

/-- The groups of a row: it is cut before each operand but the first that is joined by
    `OR`. -/
def groups (operands : List (Joiner × Formula)) : List (List (Joiner × Formula)) :=
  operands.splitBy fun _ next => next.1 = .and

/-- Each group but the first begins with `OR`. -/
theorem isGroup_of_groups_eq {operands first : List (Joiner × Formula)}
    {later : List (List (Joiner × Formula))} (hgroups : groups operands = first :: later) :
    (∃ formula others, first = formula :: others ∧ ∀ other ∈ others, other.1 = .and) ∧
      ∀ group ∈ later, ∃ formula, IsGroup group .or formula := by
  obtain ⟨-, hnil, hchain, hcut⟩ := List.splitBy_eq_iff.1 hgroups
  have hgroup {group : List (Joiner × Formula)} (hmem : group ∈ first :: later) :
      ∃ formula others, group = formula :: others ∧ ∀ other ∈ others, other.1 = .and := by
    cases group with
    | nil => exact absurd hmem hnil
    | cons formula others =>
      refine ⟨formula, others, rfl, forall_mem_of_isChain ((hchain _ hmem).imp ?_)⟩
      exact fun _ next hnext => of_decide_eq_true hnext
  have hor : ∀ group ∈ later, ∃ hne : group ≠ [], (group.head hne).1 = .or := by
    refine forall_mem_of_isChain (hcut.imp ?_)
    rintro - group ⟨-, hne, hhead⟩
    refine ⟨hne, ?_⟩
    cases hjoiner : (group.head hne).1 with
    | and => simp [hjoiner] at hhead
    | or => rfl
  refine ⟨hgroup List.mem_cons_self, fun group hmem => ?_⟩
  obtain ⟨⟨joiner, formula⟩, others, rfl, hothers⟩ := hgroup (List.mem_cons_of_mem _ hmem)
  obtain ⟨-, rfl : joiner = .or⟩ := hor _ hmem
  exact ⟨_, formula, others, rfl, hothers, rfl⟩

/-- The formula of a row is the disjunction over its groups of the conjunctions over their
    operands. -/
theorem any_groups_eq (joiner : Joiner) (first : Formula) (others : List (Joiner × Formula)) :
    any ((groups ((joiner, first) :: others)).filterMap conjunction) = some (row first others) := by
  have hflatten : (groups ((joiner, first) :: others)).flatten = (joiner, first) :: others :=
    List.flatten_splitBy _ _
  cases hgroups : groups ((joiner, first) :: others) with
  | nil => simp [hgroups] at hflatten
  | cons group later =>
    obtain ⟨⟨head, operands, rfl, hoperands⟩, hlater⟩ := isGroup_of_groups_eq hgroups
    rw [hgroups] at hflatten
    obtain ⟨rfl, rfl⟩ := List.cons.inj hflatten
    have hrow := orAfter_foldl_advance hlater (none, (operands.map (·.2)).foldl .and first)
    have hfirst : conjunction ((joiner, first) :: operands) =
        some ((operands.map (·.2)).foldl .and first) := rfl
    rw [List.filterMap_cons_some hfirst, any, row, List.append_eq, List.foldl_append,
      foldl_advance_of_and hoperands]
    exact congrArg some hrow.symm

end Formula

end ShadowCatalog
