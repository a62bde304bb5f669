import Mathlib.Data.List.Nodup
import Mathlib.Tactic.Common
import ShadowCatalog.Proofs.Browse.Consistency

/-!
# Columns in another order

An operator may show the columns of a table in another order. The same columns and labels
are shown then, but not always under the same names. A column keeps its name. A label takes
the first of its *candidates* (`labelCandidate`) that is free when its turn comes
(`JoinPlan.LabelShown.first`), so where two labels have a candidate in common, the one that
comes later *gives way* (`JoinPlan.GivesWay`).

This is all there is to it. Every name means the same in both orders exactly if each label
that gave way still comes after those that it gave way to (`JoinPlan.reordered_ofColumns`):
whatever else is moved, the labels that come first in the other order find the same
candidates free. If no label gave way, then, the order is presentation only; if one did, it
may not be (`JoinPlan.not_sameNames_pets`).
-/

namespace ShadowCatalog

/-- The names for the label of a column, in the order in which they are tried. -/
def labelCandidate (column : String) : Nat → String
  | 0 => labelName column
  | 1 => column ++ "_name"
  | n + 2 => numberedName (column ++ "_name") (n + 2)

namespace JoinPlan

/-- What an output name stands for, by whatever name a joined table goes. -/
inductive Meaning
  /-- A column of the table itself. -/
  | column (name : String)
  /-- The column that labels a foreign key of the column `source`. -/
  | label (source : String) (foreignKey : ForeignKey) (column : String)
  deriving DecidableEq, Repr

/-- The label of a planned column, if it is what is referred to. -/
def labelOrigin? (ref : ColumnRef) (planned : PlannedColumn) : Option Meaning :=
  planned.labelJoin.bind fun join =>
    if join.qualifier = ref.qualifier then
      some (.label planned.column.name join.foreignKey ref.column)
    else none

section

variable (plan : JoinPlan)

/-- What is referred to: a column of the table, or a label. -/
def origin? (ref : ColumnRef) : Option Meaning :=
  if ref.qualifier = plan.table then some (.column ref.column)
  else plan.columns.findSome? (labelOrigin? ref)

/-- What an output name stands for, where it is sorted or filtered by. -/
def meaning? (name : String) : Option Meaning := (plan.resolve? name).bind plan.origin?

/-- The label of a column is shown under a name. -/
def LabelShown (column : TrackedColumn) (name : String) : Prop :=
  ∃ join, ⟨column, some join⟩ ∈ plan.columns ∧ join.output = name

/-- The label of a column gives way to that of another, which is shown under a name that
    would have been taken before its own. -/
def GivesWay (column other : TrackedColumn) : Prop :=
  ∃ name otherName, plan.LabelShown column name ∧ plan.LabelShown other otherName ∧
    ∃ n, labelCandidate column.name n = otherName ∧ ∀ m ≤ n, labelCandidate column.name m ≠ name

/-- Two plans have the same output names, and each of them stands for the same. -/
structure SameNames (plan plan' : JoinPlan) : Prop where
  outputs : ∀ name, name ∈ plan.selected.map (·.output) ↔ name ∈ plan'.selected.map (·.output)
  meaning : ∀ name, plan.meaning? name = plan'.meaning? name

end

/-- What becomes of the plan for a table when its columns are listed in another order. -/
structure Reordered (columns order : List TrackedColumn) (plan plan' : JoinPlan) : Prop where
  columns : ∀ column ∈ columns, plan.meaning? column.name = some (.column column.name) ∧
    plan'.meaning? column.name = some (.column column.name)
  shown : ∀ meaning, (∃ name, plan.meaning? name = some meaning) ↔
    ∃ name, plan'.meaning? name = some meaning
  names : plan.SameNames plan' ↔ ∀ column other, plan.GivesWay column other →
    order.idxOf other < order.idxOf column

/-! ## The first candidate that is free -/

/-- A label takes a candidate when all those before it are taken. -/
theorem output_labelJoin (qualifiers outputs : List String) (column : String) (key : ForeignKey)
    (label : Label) :
    ∃ n, (labelJoin qualifiers outputs column key label).output = labelCandidate column n ∧
      ∀ m < n, labelCandidate column m ∈ outputs := by
  simp only [labelJoin]
  split
  · next husual =>
    rcases freshName_first (column ++ "_name") outputs with ⟨-, heq⟩ | ⟨htaken, n, hn, heq, hbefore⟩
    · refine ⟨1, heq, fun m hm => ?_⟩
      obtain rfl : m = 0 := by omega
      exact husual
    · obtain ⟨n, rfl⟩ : ∃ k, n = k + 2 := ⟨n - 2, by omega⟩
      refine ⟨n + 2, heq, fun m hm => ?_⟩
      match m with
      | 0 => exact husual
      | 1 => exact htaken
      | m + 2 => exact hbefore (m + 2) (by omega) hm
  · next husual =>
    refine ⟨0, ?_, fun m hm => absurd hm (Nat.not_lt_zero m)⟩
    exact ((freshName_first (labelName column) outputs).resolve_right fun h => husual h.1).2

variable {table : String} {columns : List TrackedColumn} {foreignKeys : List ForeignKey}

theorem mem_of_mem_plannedColumns {qualifiers outputs : List String} {planned : PlannedColumn}
    (h : planned ∈ plannedColumns foreignKeys qualifiers outputs columns) :
    planned.column ∈ columns := by
  have hmem := List.mem_map_of_mem (f := PlannedColumn.column) h
  rwa [map_column_plannedColumns] at hmem

/-- A column in front moves the other columns on. -/
theorem idxOf_lt_cons {first column other : TrackedColumn} (hne : first ≠ other)
    (hlt : columns.idxOf column < columns.idxOf other) :
    (first :: columns).idxOf column < (first :: columns).idxOf other := by
  rw [List.idxOf_cons_ne _ hne]
  by_cases hfirst : first = column
  · rw [hfirst, List.idxOf_cons_self]
    exact Nat.succ_pos _
  · rw [List.idxOf_cons_ne _ hfirst]
    exact Nat.succ_lt_succ hlt

/-- The candidates before the one that a label takes are taken: from the start, or by the
    label of a column before it. -/
theorem first_of_mem_plannedColumns {qualifiers outputs : List String} (hnodup : columns.Nodup)
    {column : TrackedColumn} {join : LabelJoin}
    (hplanned : ⟨column, some join⟩ ∈ plannedColumns foreignKeys qualifiers outputs columns) :
    ∃ n, join.output = labelCandidate column.name n ∧
      ∀ m < n, labelCandidate column.name m ∈ outputs ∨ ∃ earlier taken,
        ⟨earlier, some taken⟩ ∈ plannedColumns foreignKeys qualifiers outputs columns ∧
          taken.output = labelCandidate column.name m ∧
          columns.idxOf earlier < columns.idxOf column := by
  fun_induction plannedColumns foreignKeys qualifiers outputs columns with
  | case1 => cases hplanned
  | case2 qualifiers outputs first columns hnone ih =>
    obtain ⟨hfirst, hnodup⟩ := List.nodup_cons.1 hnodup
    have hplanned := (List.mem_cons.1 hplanned).resolve_left (by simp)
    obtain ⟨n, heq, hbefore⟩ := ih hnodup hplanned
    have hne : first ≠ column := fun heq => hfirst (heq ▸ mem_of_mem_plannedColumns hplanned)
    refine ⟨n, heq, fun m hm => (hbefore m hm).imp id ?_⟩
    rintro ⟨earlier, taken, hearlier, hname, hlt⟩
    exact ⟨earlier, taken, List.mem_cons_of_mem _ hearlier, hname, idxOf_lt_cons hne hlt⟩
  | case3 qualifiers outputs first columns key label hsome firstJoin ih =>
    obtain ⟨hfirst, hnodup⟩ := List.nodup_cons.1 hnodup
    rcases List.mem_cons.1 hplanned with heq | hplanned
    · obtain ⟨rfl, hjoin⟩ := PlannedColumn.mk.inj heq
      obtain rfl := Option.some.inj hjoin
      obtain ⟨n, heq, hbefore⟩ := output_labelJoin qualifiers outputs column.name key label
      exact ⟨n, heq, fun m hm => .inl (hbefore m hm)⟩
    · obtain ⟨n, heq, hbefore⟩ := ih hnodup hplanned
      have hne : first ≠ column := fun heq => hfirst (heq ▸ mem_of_mem_plannedColumns hplanned)
      refine ⟨n, heq, fun m hm => ?_⟩
      rcases hbefore m hm with htaken | ⟨earlier, taken, hearlier, hname, hlt⟩
      · rcases List.mem_cons.1 htaken with hname | htaken
        · refine .inr ⟨first, firstJoin, List.mem_cons_self, hname.symm, ?_⟩
          rw [List.idxOf_cons_self, List.idxOf_cons_ne _ hne]
          exact Nat.succ_pos _
        · exact .inl htaken
      · exact .inr
          ⟨earlier, taken, List.mem_cons_of_mem _ hearlier, hname, idxOf_lt_cons hne hlt⟩

/-! ## What a name stands for -/

theorem nodup_of_names (hnames : columns.Pairwise (·.name ≠ ·.name)) : columns.Nodup :=
  hnames.imp fun hne heq => hne (congrArg TrackedColumn.name heq)

theorem names_of_perm {order : List TrackedColumn} (hperm : order.Perm columns)
    (hnames : columns.Pairwise (·.name ≠ ·.name)) : order.Pairwise (·.name ≠ ·.name) :=
  (hperm.pairwise_iff Ne.symm).2 hnames

theorem mem_labelJoins {plan : JoinPlan} {join : LabelJoin} :
    join ∈ plan.labelJoins ↔ ∃ column, ⟨column, some join⟩ ∈ plan.columns := by
  rw [labelJoins, List.mem_filterMap]
  constructor
  · rintro ⟨⟨column, _⟩, hplanned, rfl⟩
    exact ⟨column, hplanned⟩
  · rintro ⟨column, hplanned⟩
    exact ⟨_, hplanned, rfl⟩

/-- The foreign key of a label says which column it follows. -/
theorem name_of_mem_columns {column : TrackedColumn} {join : LabelJoin}
    (h : ⟨column, some join⟩ ∈ (ofColumns table columns foreignKeys).columns) :
    column.name = join.foreignKey.referencingColumn :=
  (labelledBy_of_mem_columns h rfl).1.column.symm

/-- The label that follows a column is the only one that is joined by its name. -/
theorem origin?_ref {column : TrackedColumn} {join : LabelJoin}
    (h : ⟨column, some join⟩ ∈ (ofColumns table columns foreignKeys).columns) :
    (ofColumns table columns foreignKeys).origin? join.ref =
      some (.label column.name join.foreignKey join.label.name) := by
  have htable : join.ref.qualifier ≠ (ofColumns table columns foreignKeys).table :=
    (labelledBy_of_mem_columns h rfl).2
  have hself : labelOrigin? join.ref ⟨column, some join⟩ =
      some (.label column.name join.foreignKey join.label.name) := if_pos rfl
  rw [origin?, if_neg htable]
  cases hfind : (ofColumns table columns foreignKeys).columns.findSome? (labelOrigin? join.ref) with
  | none =>
    rw [List.findSome?_eq_none_iff.1 hfind _ h] at hself
    cases hself
  | some meaning =>
    obtain ⟨⟨other, found⟩, hother, hfound⟩ := List.exists_of_findSome?_eq_some hfind
    obtain ⟨found, rfl, hfound⟩ := Option.bind_eq_some_iff.1 hfound
    obtain ⟨hqualifier, heq⟩ := Option.ite_none_right_eq_some.1 hfound
    obtain rfl : found = join := List.inj_on_of_nodup_map (nodup_qualifiers [table] _)
      (mem_labelJoins.2 ⟨other, hother⟩) (mem_labelJoins.2 ⟨column, h⟩) hqualifier
    rw [← heq, name_of_mem_columns hother, name_of_mem_columns h]
    rfl

theorem mem_outputs_ofColumns {name : String} :
    name ∈ (ofColumns table columns foreignKeys).selected.map (·.output) ↔
      (∃ column ∈ columns, column.name = name) ∨
        ∃ column, (ofColumns table columns foreignKeys).LabelShown column name := by
  rw [← perm_outputs.mem_iff, List.mem_append, List.mem_map, List.mem_map]
  refine or_congr_right ⟨?_, ?_⟩
  · rintro ⟨join, hjoin, hname⟩
    obtain ⟨column, hplanned⟩ := mem_labelJoins.1 hjoin
    exact ⟨column, join, hplanned, hname⟩
  · rintro ⟨column, join, hplanned, hname⟩
    exact ⟨join, mem_labelJoins.2 ⟨column, hplanned⟩, hname⟩

/-- The label that is shown after a column is that of its first foreign key that has one. -/
theorem labelled?_of_mem_columns {column : TrackedColumn} {join : LabelJoin}
    (h : ⟨column, some join⟩ ∈ (ofColumns table columns foreignKeys).columns) :
    labelled? foreignKeys column.name = some (join.foreignKey, join.label) :=
  (map_labelJoin_of_mem_plannedColumns h).symm

/-- Whether a column has a label is the same wherever the column is listed. -/
theorem exists_labelShown_iff {column : TrackedColumn} :
    (∃ name, (ofColumns table columns foreignKeys).LabelShown column name) ↔
      column ∈ columns ∧ (labelled? foreignKeys column.name).isSome := by
  constructor
  · rintro ⟨name, join, hjoin, -⟩
    exact ⟨mem_of_mem_plannedColumns hjoin, Option.isSome_of_eq_some (labelled?_of_mem_columns hjoin)⟩
  · rintro ⟨hmem, hsome⟩
    have hlisted : (ofColumns table columns foreignKeys).columns.map (·.column) = columns :=
      map_column_columns
    rw [← hlisted] at hmem
    obtain ⟨⟨_, labelJoin⟩, hplanned, rfl⟩ := List.mem_map.1 hmem
    rw [← map_labelJoin_of_mem_plannedColumns hplanned, Option.isSome_map] at hsome
    obtain ⟨join, rfl⟩ := Option.isSome_iff_exists.1 hsome
    exact ⟨_, join, hplanned, rfl⟩

section

variable (hnames : columns.Pairwise (·.name ≠ ·.name))
include hnames

theorem meaning?_column {column : TrackedColumn} (h : column ∈ columns) :
    (ofColumns table columns foreignKeys).meaning? column.name = some (.column column.name) := by
  have hresolve : (ofColumns table columns foreignKeys).resolve? column.name =
      some ⟨table, column.name⟩ := Option.or_eq_some_iff.2 (.inl (get?_columnRefs hnames h))
  rw [meaning?, hresolve, Option.bind_some]
  exact if_pos rfl

theorem LabelShown.meaning? {column : TrackedColumn} {name : String}
    (h : (ofColumns table columns foreignKeys).LabelShown column name) :
    ∃ key label, labelled? foreignKeys column.name = some (key, label) ∧
      (ofColumns table columns foreignKeys).meaning? name =
        some (.label column.name key label.name) := by
  obtain ⟨join, hplanned, rfl⟩ := h
  have hjoin : join ∈ (ofColumns table columns foreignKeys).labelJoins :=
    mem_labelJoins.2 ⟨column, hplanned⟩
  have hresolve : (ofColumns table columns foreignKeys).resolve? join.output = some join.ref :=
    Option.or_eq_some_iff.2 (.inr ⟨get?_columnRefs_output hnames hjoin, get?_labelRefs hnames hjoin⟩)
  refine ⟨_, _, labelled?_of_mem_columns hplanned, ?_⟩
  rw [JoinPlan.meaning?, hresolve, Option.bind_some]
  exact origin?_ref hplanned

/-- A name stands for a column of the table, or for the label that is shown under it. -/
theorem meaning?_eq_some_iff {name : String} {meaning : Meaning} :
    (ofColumns table columns foreignKeys).meaning? name = some meaning ↔
      (∃ column ∈ columns, column.name = name ∧ meaning = .column name) ∨
        ∃ column key label, (ofColumns table columns foreignKeys).LabelShown column name ∧
          labelled? foreignKeys column.name = some (key, label) ∧
          meaning = .label column.name key label.name := by
  constructor
  · intro h
    obtain ⟨ref, href, -⟩ := Option.bind_eq_some_iff.1 h
    have houtput := not_not.1 (mt resolve?_eq_none_iff.2 (Option.ne_none_iff_exists'.2 ⟨ref, href⟩))
    rcases mem_outputs_ofColumns.1 houtput with ⟨column, hcolumn, rfl⟩ | ⟨column, hlabel⟩
    · rw [meaning?_column hnames hcolumn] at h
      exact .inl ⟨column, hcolumn, rfl, (Option.some.inj h).symm⟩
    · obtain ⟨key, label, hkey, hmeaning⟩ := hlabel.meaning? hnames
      exact .inr ⟨column, key, label, hlabel, hkey, Option.some.inj (h.symm.trans hmeaning)⟩
  · rintro (⟨column, hcolumn, rfl, rfl⟩ | ⟨column, key, label, hlabel, hkey, rfl⟩)
    · exact meaning?_column hnames hcolumn
    · obtain ⟨key', label', hkey', hmeaning⟩ := hlabel.meaning? hnames
      obtain ⟨rfl, rfl⟩ := Prod.mk.inj (Option.some.inj (hkey.symm.trans hkey'))
      exact hmeaning

/-! ## The names under which labels are shown -/

theorem LabelShown.unique {column : TrackedColumn} {name name' : String}
    (h : (ofColumns table columns foreignKeys).LabelShown column name)
    (h' : (ofColumns table columns foreignKeys).LabelShown column name') : name = name' := by
  obtain ⟨join, hjoin, rfl⟩ := h
  obtain ⟨join', hjoin', rfl⟩ := h'
  have hlisted : ((ofColumns table columns foreignKeys).columns.map (·.column)).Nodup := by
    rw [map_column_columns]
    exact nodup_of_names hnames
  obtain ⟨-, heq⟩ := PlannedColumn.mk.inj (List.inj_on_of_nodup_map hlisted hjoin hjoin' rfl)
  rw [Option.some.inj heq]

theorem LabelShown.column_unique {column column' : TrackedColumn} {name : String}
    (h : (ofColumns table columns foreignKeys).LabelShown column name)
    (h' : (ofColumns table columns foreignKeys).LabelShown column' name) : column = column' := by
  obtain ⟨join, hjoin, rfl⟩ := h
  obtain ⟨join', hjoin', heq⟩ := h'
  have houtputs := (List.nodup_append.1 (nodup_names table foreignKeys hnames)).2.1
  obtain rfl : join' = join := List.inj_on_of_nodup_map houtputs
    (mem_labelJoins.2 ⟨column', hjoin'⟩) (mem_labelJoins.2 ⟨column, hjoin⟩) heq
  refine List.inj_on_of_nodup_map (List.pairwise_map.2 hnames) (mem_of_mem_plannedColumns hjoin)
    (mem_of_mem_plannedColumns hjoin') ?_
  rw [name_of_mem_columns hjoin, name_of_mem_columns hjoin']

theorem LabelShown.not_mem_names {column : TrackedColumn} {name : String}
    (h : (ofColumns table columns foreignKeys).LabelShown column name) :
    name ∉ columns.map (·.name) := by
  obtain ⟨join, hjoin, rfl⟩ := h
  intro hmem
  have hjoin := List.mem_map_of_mem (f := LabelJoin.output) (mem_labelJoins.2 ⟨column, hjoin⟩)
  exact (List.nodup_append.1 (nodup_names table foreignKeys hnames)).2.2 _ hmem _ hjoin rfl

/-- A label is shown under the first of its candidates that is free: of the others before it,
    each is the name of a column, or of the label of a column further ahead. -/
theorem LabelShown.first {column : TrackedColumn} {name : String}
    (h : (ofColumns table columns foreignKeys).LabelShown column name) :
    ∃ n, labelCandidate column.name n = name ∧ ∀ m < n,
      labelCandidate column.name m ∈ columns.map (·.name) ∨ ∃ earlier,
        (ofColumns table columns foreignKeys).LabelShown earlier (labelCandidate column.name m) ∧
          columns.idxOf earlier < columns.idxOf column := by
  obtain ⟨join, hjoin, rfl⟩ := h
  obtain ⟨n, heq, hbefore⟩ := first_of_mem_plannedColumns (nodup_of_names hnames) hjoin
  refine ⟨n, heq.symm, fun m hm => (hbefore m hm).imp_right ?_⟩
  rintro ⟨earlier, taken, hearlier, hname, hlt⟩
  exact ⟨earlier, ⟨taken, hearlier, hname⟩, hlt⟩

end

/-! ## Two orders -/

theorem exists_labelShown {order : List TrackedColumn} (hperm : order.Perm columns)
    {column : TrackedColumn} {name : String}
    (h : (ofColumns table columns foreignKeys).LabelShown column name) :
    ∃ name', (ofColumns table order foreignKeys).LabelShown column name' := by
  obtain ⟨hmem, hsome⟩ := exists_labelShown_iff.1 ⟨name, h⟩
  exact exists_labelShown_iff.2 ⟨hperm.mem_iff.2 hmem, hsome⟩

section

variable {order : List TrackedColumn} (hnames : columns.Pairwise (·.name ≠ ·.name))
  (hperm : order.Perm columns)
include hnames hperm

/-- If the labels that gave way still come later, they find the same candidates taken. The
    induction is on how far ahead a column is in the other order. -/
theorem labelShown_of_givesWay
    (hlater : ∀ column other, (ofColumns table columns foreignKeys).GivesWay column other →
      order.idxOf other < order.idxOf column)
    {column : TrackedColumn} {name' : String}
    (h' : (ofColumns table order foreignKeys).LabelShown column name') :
    (ofColumns table columns foreignKeys).LabelShown column name' := by
  have hnames' := names_of_perm hperm hnames
  induction hindex : order.idxOf column using Nat.strongRecOn generalizing column name' with
  | ind index ih =>
    subst hindex
    obtain ⟨name, h⟩ := exists_labelShown hperm.symm h'
    obtain ⟨n, hn, hbefore⟩ := h.first hnames
    obtain ⟨n', hn', hbefore'⟩ := h'.first hnames'
    rcases Nat.lt_trichotomy n n' with hlt | rfl | hlt
    · -- The name was free before, so it is free now.
      exfalso
      rcases hbefore' n hlt with htaken | ⟨earlier, hearlier, hahead⟩
      · exact h.not_mem_names hnames ((hperm.map _).mem_iff.1 (hn ▸ htaken))
      · obtain rfl := (ih _ hahead hearlier rfl).column_unique hnames (hn ▸ h)
        exact Nat.lt_irrefl _ hahead
    · rwa [← hn', hn]
    · -- The name was another's, which still comes first.
      exfalso
      rcases hbefore n' hlt with htaken | ⟨other, hother, -⟩
      · exact h'.not_mem_names hnames' ((hperm.map _).mem_iff.2 (hn' ▸ htaken))
      · have hgives : (ofColumns table columns foreignKeys).GivesWay column other := by
          refine ⟨name, _, h, hother, n', rfl, fun m hm heq => ?_⟩
          rcases hbefore m (by omega) with htaken | ⟨earlier, hearlier, hahead⟩
          · exact h.not_mem_names hnames (heq ▸ htaken)
          · obtain rfl := hearlier.column_unique hnames (heq ▸ h)
            exact Nat.lt_irrefl _ hahead
        have hahead := hlater column other hgives
        obtain ⟨found, hfound⟩ := exists_labelShown hperm hother
        obtain rfl := (ih _ hahead hfound rfl).unique hnames hother
        obtain rfl := hfound.column_unique hnames' (hn' ▸ h')
        exact Nat.lt_irrefl _ hahead

/-- Labels that are shown under the same names find the same candidates taken by labels that
    come first. -/
theorem idxOf_lt_of_givesWay
    (hsame : ∀ column name, (ofColumns table columns foreignKeys).LabelShown column name →
      (ofColumns table order foreignKeys).LabelShown column name)
    {column other : TrackedColumn}
    (h : (ofColumns table columns foreignKeys).GivesWay column other) :
    order.idxOf other < order.idxOf column := by
  have hnames' := names_of_perm hperm hnames
  obtain ⟨name, _, hname, hother, n, rfl, hlater⟩ := h
  obtain ⟨n', hn', hbefore⟩ := (hsame column name hname).first hnames'
  have hlt : n < n' := Nat.not_le.1 fun hle => hlater n' hle hn'
  rcases hbefore n hlt with htaken | ⟨earlier, hearlier, hahead⟩
  · exact absurd htaken ((hsame other _ hother).not_mem_names hnames')
  · rwa [(hsame other _ hother).column_unique hnames' hearlier]

/-- Names that mean the same are those of the same labels. -/
theorem SameNames.labelShown
    (h : (ofColumns table columns foreignKeys).SameNames (ofColumns table order foreignKeys))
    {column : TrackedColumn} {name : String}
    (hlabel : (ofColumns table columns foreignKeys).LabelShown column name) :
    (ofColumns table order foreignKeys).LabelShown column name := by
  have hnames' := names_of_perm hperm hnames
  obtain ⟨key, label, hkey, hmeaning⟩ := hlabel.meaning? hnames
  rw [h.meaning] at hmeaning
  rcases (meaning?_eq_some_iff hnames').1 hmeaning with
    ⟨other, -, -, heq⟩ | ⟨other, key', label', hother, -, heq⟩
  · cases heq
  · obtain ⟨hcolumn, -, -⟩ := Meaning.label.inj heq
    have hmem := (exists_labelShown_iff.1 ⟨name, hlabel⟩).1
    have hmem' := (exists_labelShown_iff.1 ⟨name, hother⟩).1
    rwa [List.inj_on_of_nodup_map (List.pairwise_map.2 hnames') (hperm.mem_iff.2 hmem) hmem' hcolumn]

theorem sameNames_of_labelShown
    (h : ∀ column name, (ofColumns table columns foreignKeys).LabelShown column name ↔
      (ofColumns table order foreignKeys).LabelShown column name) :
    (ofColumns table columns foreignKeys).SameNames (ofColumns table order foreignKeys) where
  outputs name := by simp only [mem_outputs_ofColumns, hperm.mem_iff, h]
  meaning name := by
    have hnames' := names_of_perm hperm hnames
    refine Option.ext fun meaning => ?_
    simp only [meaning?_eq_some_iff hnames, meaning?_eq_some_iff hnames',
      hperm.mem_iff, h]

theorem exists_meaning? {meaning : Meaning} {name : String}
    (h : (ofColumns table columns foreignKeys).meaning? name = some meaning) :
    ∃ name', (ofColumns table order foreignKeys).meaning? name' = some meaning := by
  have hnames' := names_of_perm hperm hnames
  rcases (meaning?_eq_some_iff hnames).1 h with
    ⟨column, hcolumn, hname, rfl⟩ | ⟨column, key, label, hlabel, hkey, rfl⟩
  · exact ⟨name, (meaning?_eq_some_iff hnames').2
      (.inl ⟨column, hperm.mem_iff.2 hcolumn, hname, rfl⟩)⟩
  · obtain ⟨name', hlabel'⟩ := exists_labelShown hperm hlabel
    exact ⟨name', (meaning?_eq_some_iff hnames').2 (.inr ⟨column, key, label, hlabel', hkey, rfl⟩)⟩

end

/-- In another order, columns keep their names and labels are still shown. Every name means
    the same exactly if each label that gave way still comes after those it gave way to. -/
theorem reordered_ofColumns (table : String) (columns order : List TrackedColumn)
    (foreignKeys : List ForeignKey) (hnames : columns.Pairwise (·.name ≠ ·.name))
    (hperm : order.Perm columns) :
    Reordered columns order (ofColumns table columns foreignKeys)
      (ofColumns table order foreignKeys) where
  columns column hcolumn := ⟨meaning?_column hnames hcolumn,
    meaning?_column (names_of_perm hperm hnames) (hperm.mem_iff.2 hcolumn)⟩
  shown meaning := by
    have hnames' := names_of_perm hperm hnames
    exact ⟨fun ⟨_, h⟩ => exists_meaning? hnames hperm h,
      fun ⟨_, h⟩ => exists_meaning? hnames' hperm.symm h⟩
  names := by
    constructor
    · intro hsame column other
      exact idxOf_lt_of_givesWay hnames hperm fun column name => hsame.labelShown hnames hperm
    · intro hlater
      have hinto (column : TrackedColumn) (name : String) :
          (ofColumns table order foreignKeys).LabelShown column name →
            (ofColumns table columns foreignKeys).LabelShown column name :=
        labelShown_of_givesWay hnames hperm hlater
      refine sameNames_of_labelShown hnames hperm fun column name => ⟨fun h => ?_, hinto column name⟩
      obtain ⟨name', h'⟩ := exists_labelShown hperm h
      rwa [h.unique hnames (hinto column name' h')]

/-- The columns of a table `pets`. The labels of two of them would both be `owner_name`. -/
def petColumns : List TrackedColumn :=
  [⟨1, 1, 1, "id", "integer"⟩, ⟨2, 1, 2, "owner_id", "integer"⟩,
    ⟨3, 1, 3, "owner_uid", "integer"⟩]

def petKeys : List ForeignKey :=
  [⟨"pets", "owner_id", "people", "id", some ⟨"name", "text"⟩⟩,
    ⟨"pets", "owner_uid", "users", "uid", some ⟨"email", "text"⟩⟩]

theorem reordered_ofColumns_pets :
    petColumns.Pairwise (·.name ≠ ·.name) ∧ petColumns.reverse.Perm petColumns ∧
      Reordered petColumns petColumns.reverse (ofColumns "pets" petColumns petKeys)
        (ofColumns "pets" petColumns.reverse petKeys) :=
  ⟨by decide, List.reverse_perm _,
    reordered_ofColumns "pets" petColumns petColumns.reverse petKeys (by decide)
      (List.reverse_perm _)⟩

/-- The first of the two labels is `owner_name`, so the name stands for the other label when
    the columns are listed from the last to the first. -/
theorem not_sameNames_pets :
    ¬ ∀ (table : String) (columns order : List TrackedColumn) (foreignKeys : List ForeignKey),
      columns.Pairwise (·.name ≠ ·.name) → order.Perm columns →
        (ofColumns table columns foreignKeys).SameNames (ofColumns table order foreignKeys) := by
  intro h
  have hmeaning := (h "pets" petColumns petColumns.reverse petKeys (by decide)
    (List.reverse_perm _)).meaning "owner_name"
  revert hmeaning
  decide

end JoinPlan

end ShadowCatalog
