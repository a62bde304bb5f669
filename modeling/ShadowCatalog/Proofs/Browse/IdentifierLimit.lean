import ShadowCatalog.Proofs.Browse.Reordering

/-!
# Names that a database cuts off

PostgreSQL keeps the first 63 bytes of an identifier (`keptBytes`). The names in a join plan
differ, but a number that makes one differ from another stands at its end, where it is cut
off. So what is kept of two of them may be the same even if the names of all tables and
columns are within the limit (`JoinPlan.not_kept_apart`).

Names within the limit are never mistaken for each other. Whether a plan has only such names
can be told from the room that its tables and columns leave (`JoinPlan.kept_apart`):

* Tables are kept apart if those that are joined under another name than their own leave
  room for the greatest number that there may be (`JoinPlan.RoomForTables`). If the name of
  one of them leaves no room at all, they are not.
* Output columns are kept apart if there is room for the labels, and for a number if a label
  does not have its usual name (`JoinPlan.RoomForLabels`). If the name of a label goes on
  after that of its column, and this one leaves no room at all, they are not.
-/

namespace ShadowCatalog

/-- The number of bytes that are kept of an identifier. -/
def identifierLimit : Nat := 63

/-- What is kept of an identifier. -/
def keptBytes (name : String) : ByteArray := name.toByteArray.extract 0 identifierLimit

/-! ## What is kept -/

/-- A name within the limit is kept as it is. -/
theorem keptBytes_of_le {name : String} (h : name.utf8ByteSize ≤ identifierLimit) :
    keptBytes name = name.toByteArray := by
  have hmax : max identifierLimit name.toByteArray.size = identifierLimit := Nat.max_eq_left h
  rw [keptBytes, ← hmax]
  exact ByteArray.extract_zero_max_size

/-- What is added to a name that leaves no room is cut off. -/
theorem keptBytes_append {name : String} (h : name.utf8ByteSize = identifierLimit)
    (rest : String) : keptBytes (name ++ rest) = keptBytes name := by
  rw [keptBytes_of_le (Nat.le_of_eq h), keptBytes, String.toByteArray_append]
  exact ByteArray.extract_append_eq_left h.symm

/-- Names within the limit are kept apart. -/
theorem nodup_map_keptBytes {names : List String} (hnodup : names.Nodup)
    (h : ∀ name ∈ names, name.utf8ByteSize ≤ identifierLimit) : (names.map keptBytes).Nodup := by
  refine List.Nodup.map_on (fun a ha b hb hkept => ?_) hnodup
  rw [keptBytes_of_le (h a ha), keptBytes_of_le (h b hb)] at hkept
  exact String.toByteArray_inj.1 hkept

/-- A name that leaves no room is mistaken for one that goes on after it. -/
theorem not_nodup_map_keptBytes {names : List String} {name rest : String}
    (h : name.utf8ByteSize = identifierLimit) (hrest : rest ≠ "") (hname : name ∈ names)
    (hlonger : name ++ rest ∈ names) : ¬(names.map keptBytes).Nodup := by
  intro hnodup
  have heq := List.inj_on_of_nodup_map hnodup hlonger hname (keptBytes_append h rest)
  exact hrest (String.append_eq_left_iff.1 heq)

/-! ## Numbers -/

theorem utf8ByteSize_ofList_of_isDigit {cs : List Char} (h : ∀ c ∈ cs, c.isDigit = true) :
    (String.ofList cs).utf8ByteSize = cs.length := by
  induction cs with
  | nil => rfl
  | cons c cs ih =>
    rw [List.forall_mem_cons] at h
    have hone : c.utf8Size = 1 := by
      have hrange : 48 ≤ c.val.toNat ∧ c.val.toNat ≤ 57 := by
        simpa [Char.isDigit, UInt32.le_iff_toNat_le] using h.1
      rw [Char.utf8Size_eq_one_iff, UInt32.le_iff_toNat_le]
      exact Nat.le_trans hrange.2 (by decide)
    rw [String.ofList_cons, String.utf8ByteSize_append, String.utf8ByteSize_singleton, hone,
      ih h.2, List.length_cons, Nat.add_comm]

/-- A greater number takes no less room. -/
theorem utf8ByteSize_numberedName_le (base : String) {n m : Nat} (h : n ≤ m) :
    (numberedName base n).utf8ByteSize ≤ (numberedName base m).utf8ByteSize := by
  have hsize (k : Nat) : (toString k).utf8ByteSize = (Nat.toDigits 10 k).length := by
    rw [Nat.toString_eq_ofList_toDigits]
    refine utf8ByteSize_ofList_of_isDigit fun c hc => ?_
    exact Nat.isDigit_of_mem_toDigits (by decide) (by decide) hc
  have hdigits : (Nat.toDigits 10 n).length ≤ (Nat.toDigits 10 m).length := by
    rw [Nat.length_toDigits_le_iff (by decide) Nat.length_toDigits_pos]
    refine Nat.lt_of_le_of_lt h ?_
    exact (Nat.length_toDigits_le_iff (by decide) Nat.length_toDigits_pos).1 (Nat.le_refl _)
  simp only [numberedName, String.utf8ByteSize_append, hsize]
  omega

namespace JoinPlan

/-- A label has its usual name, or one that goes on after the name of its column, with a number
    that is not greater than the count of names that are taken allows. -/
theorem output_labelJoin_cases (qualifiers outputs : List String) (column : String)
    (key : ForeignKey) (label : Label) :
    (labelJoin qualifiers outputs column key label).output = labelName column ∨
      ∃ rest ≠ "", (labelJoin qualifiers outputs column key label).output = column ++ rest ∧
        (column ++ rest).utf8ByteSize ≤
          (numberedName (column ++ "_name") (outputs.length + 1)).utf8ByteSize := by
  obtain ⟨n, heq, hbefore⟩ := output_labelJoin qualifiers outputs column key label
  match n with
  | 0 => exact .inl heq
  | 1 =>
    refine .inr ⟨"_name", by decide, heq, ?_⟩
    rw [numberedName_eq_append, String.utf8ByteSize_append (s := column ++ "_name")]
    exact Nat.le_add_right _ _
  | n + 2 =>
    have hnumber : n + 2 ≤ outputs.length + 1 := by
      refine number_le (hbefore 1 (by omega)) fun m hm hlt => ?_
      obtain ⟨m, rfl⟩ : ∃ k, m = k + 2 := ⟨m - 2, by omega⟩
      exact hbefore (m + 2) hlt
    have hrest :
        labelCandidate column (n + 2) = column ++ ("_name" ++ ("_" ++ toString (n + 2))) := by
      rw [labelCandidate, numberedName_eq_append, String.append_assoc]
    refine .inr ⟨_, ?_, heq.trans hrest, ?_⟩
    · intro hempty
      exact suffix_ne_empty _ (String.append_eq_empty_iff.1 hempty).2
    · rw [← hrest]
      exact utf8ByteSize_numberedName_le _ hnumber

/-- What names a label joined in turn finds taken: those that stood for tables and were shown
    from the start, and those of the labels before it. -/
theorem exists_before {foreignKeys : List ForeignKey} {columns : List TrackedColumn}
    {qualifiers outputs : List String} {planned : PlannedColumn} {join : LabelJoin}
    (hplanned : planned ∈ plannedColumns foreignKeys qualifiers outputs columns)
    (hjoin : join ∈ planned.labelJoin) :
    ∃ before after,
      (plannedColumns foreignKeys qualifiers outputs columns).filterMap (·.labelJoin) =
          before ++ join :: after ∧
        join = labelJoin ((before.map (·.qualifier)).reverse ++ qualifiers)
          ((before.map (·.output)).reverse ++ outputs) planned.column.name join.foreignKey
          join.label := by
  fun_induction plannedColumns foreignKeys qualifiers outputs columns with
  | case1 => cases hplanned
  | case2 qualifiers outputs column columns hnone ih =>
    rcases List.mem_cons.1 hplanned with rfl | hplanned
    · cases hjoin
    · exact ih hplanned
  | case3 qualifiers outputs column columns key label hsome first ih =>
    rcases List.mem_cons.1 hplanned with rfl | hplanned
    · obtain rfl : first = join := Option.some.inj hjoin
      exact ⟨[], _, rfl, rfl⟩
    · obtain ⟨before, after, hlabels, heq⟩ := ih hplanned
      refine ⟨first :: before, after, congrArg (first :: ·) hlabels, ?_⟩
      rw [List.map_cons, List.map_cons, List.reverse_cons, List.reverse_cons, List.append_assoc,
        List.append_assoc]
      exact heq

/-! ## Names in a plan -/

section

variable (plan : JoinPlan)

/-- The names of tables are told apart by what is kept of them. -/
def KeepsTablesApart : Prop := ((plan.tables.map (·.1)).map keptBytes).Nodup

/-- The output columns are told apart by what is kept of their names. -/
def KeepsOutputsApart : Prop := ((plan.selected.map (·.output)).map keptBytes).Nodup

/-- A table that is joined under another name than its own has room for the greatest number
    that there may be. -/
def RoomForTables : Prop :=
  ∀ join ∈ plan.labelJoins, join.qualifier ≠ join.foreignKey.referencedTable →
    (numberedName join.foreignKey.referencedTable
      (plan.labelJoins.length + 1)).utf8ByteSize ≤ identifierLimit

/-- There is room for a label under its usual name, or otherwise for the name of its column
    with the greatest number that there may be. -/
def RoomForLabels : Prop :=
  ∀ planned ∈ plan.columns, ∀ join ∈ planned.labelJoin,
    if join.output = labelName planned.column.name then
      (labelName planned.column.name).utf8ByteSize ≤ identifierLimit
    else
      (numberedName (planned.column.name ++ "_name")
        (plan.columns.length + plan.labelJoins.length)).utf8ByteSize ≤ identifierLimit

/-- A table that leaves no room is joined under another name than its own. -/
def CutsTable : Prop :=
  ∃ join ∈ plan.labelJoins, join.foreignKey.referencedTable.utf8ByteSize = identifierLimit ∧
    join.qualifier ≠ join.foreignKey.referencedTable

/-- A column that leaves no room has a label, under a name that goes on after its own. -/
def CutsLabel : Prop :=
  ∃ planned ∈ plan.columns, ∃ join ∈ planned.labelJoin,
    planned.column.name.utf8ByteSize = identifierLimit ∧
      (join.output ≠ labelName planned.column.name ∨
        labelName planned.column.name = planned.column.name ++ "_name")

instance : Decidable plan.KeepsTablesApart := inferInstanceAs (Decidable (List.Nodup _))

instance : Decidable plan.KeepsOutputsApart := inferInstanceAs (Decidable (List.Nodup _))

instance : Decidable plan.RoomForTables :=
  inferInstanceAs (Decidable (∀ join ∈ plan.labelJoins, _ → _))

instance : Decidable plan.RoomForLabels :=
  inferInstanceAs (Decidable (∀ planned ∈ plan.columns, ∀ join ∈ planned.labelJoin, _))

end

/-- All names of a foreign key and its label. -/
def identifiersOf (key : ForeignKey) : List String :=
  [key.referencingTable, key.referencingColumn, key.referencedTable, key.referencedColumn] ++
    (key.label.map (·.name)).toList

/-- The names of tables and columns are within the limit. -/
def WithinLimit (table : String) (columns : List TrackedColumn) (foreignKeys : List ForeignKey) :
    Prop :=
  ∀ name ∈ table :: columns.map (·.name) ++ foreignKeys.flatMap identifiersOf,
    name.utf8ByteSize ≤ identifierLimit

instance (table : String) (columns : List TrackedColumn) (foreignKeys : List ForeignKey) :
    Decidable (WithinLimit table columns foreignKeys) :=
  inferInstanceAs (Decidable (∀ name ∈ _, _))

section

variable {table : String} {columns : List TrackedColumn} {foreignKeys : List ForeignKey}

theorem WithinLimit.column_le (h : WithinLimit table columns foreignKeys) {column : TrackedColumn}
    (hcolumn : column ∈ columns) : column.name.utf8ByteSize ≤ identifierLimit :=
  h _ (List.mem_append_left _ (List.mem_cons_of_mem _ (List.mem_map_of_mem hcolumn)))

theorem WithinLimit.referencedTable_le (h : WithinLimit table columns foreignKeys)
    {key : ForeignKey} (hkey : key ∈ foreignKeys) :
    key.referencedTable.utf8ByteSize ≤ identifierLimit := by
  refine h _ (List.mem_append_right _ (List.mem_flatMap.2 ⟨key, hkey, ?_⟩))
  exact List.mem_append_left _ (by simp)

/-- A label is joined under the name of its table, or this one stands for another table and
    gets a number. -/
theorem qualifier_cases {planned : PlannedColumn} {join : LabelJoin}
    (hplanned : planned ∈ (ofColumns table columns foreignKeys).columns)
    (hjoin : join ∈ planned.labelJoin) :
    join.qualifier = join.foreignKey.referencedTable ∨
      join.foreignKey.referencedTable ∈ (ofColumns table columns foreignKeys).tables.map (·.1) ∧
        ∃ n ≤ (ofColumns table columns foreignKeys).labelJoins.length + 1,
          join.qualifier = numberedName join.foreignKey.referencedTable n := by
  obtain ⟨before, after, hlabels, heq⟩ := exists_before hplanned hjoin
  have hqualifier : join.qualifier =
      freshName join.foreignKey.referencedTable ((before.map (·.qualifier)).reverse ++ [table]) :=
    congrArg LabelJoin.qualifier heq
  rw [hqualifier]
  refine (freshName_cases _ _).imp id ?_
  rintro ⟨htaken, n, hn, hnumbered⟩
  have hjoins : (ofColumns table columns foreignKeys).labelJoins = before ++ join :: after :=
    hlabels
  refine ⟨?_, n, ?_, hnumbered⟩
  · -- What is taken are the table and the tables that were joined before.
    rw [tables, hjoins, List.map_cons, List.map_map, List.map_append]
    rcases List.mem_append.1 htaken with hmem | hmem
    · exact List.mem_cons_of_mem _ (List.mem_append_left _ (List.mem_reverse.1 hmem))
    · exact List.mem_cons.2 (.inl (List.mem_singleton.1 hmem))
  · rw [hjoins]
    simp only [List.length_append, List.length_reverse, List.length_map, List.length_cons,
      List.length_nil] at hn ⊢
    omega

/-- A label is shown under its usual name, or under one that goes on after the name of its
    column and needs no more room than the greatest number does. -/
theorem output_cases {planned : PlannedColumn} {join : LabelJoin}
    (hplanned : planned ∈ (ofColumns table columns foreignKeys).columns)
    (hjoin : join ∈ planned.labelJoin) :
    join.output = labelName planned.column.name ∨
      ∃ rest ≠ "", join.output = planned.column.name ++ rest ∧
        join.output.utf8ByteSize ≤ (numberedName (planned.column.name ++ "_name")
          ((ofColumns table columns foreignKeys).columns.length +
            (ofColumns table columns foreignKeys).labelJoins.length)).utf8ByteSize := by
  obtain ⟨before, after, hlabels, heq⟩ := exists_before hplanned hjoin
  have houtput := output_labelJoin_cases ((before.map (·.qualifier)).reverse ++ [table])
    ((before.map (·.output)).reverse ++ columns.map (·.name)) planned.column.name
    join.foreignKey join.label
  rw [← heq] at houtput
  refine houtput.imp id ?_
  rintro ⟨rest, hrest, hlonger, hsize⟩
  refine ⟨rest, hrest, hlonger, hlonger ▸ Nat.le_trans hsize ?_⟩
  refine utf8ByteSize_numberedName_le _ ?_
  have hjoins : (ofColumns table columns foreignKeys).labelJoins = before ++ join :: after :=
    hlabels
  have hcolumns : (ofColumns table columns foreignKeys).columns.length = columns.length := by
    have hmap : (ofColumns table columns foreignKeys).columns.map (·.column) = columns :=
      map_column_columns
    rw [← List.length_map, hmap]
  rw [hjoins, hcolumns]
  simp only [List.length_append, List.length_reverse, List.length_map, List.length_cons]
  omega

/-- Where there is room, what is kept of the names in a plan tells them apart. Where a name
    leaves none and another one goes on after it, it does not. -/
theorem kept_apart (hnames : columns.Pairwise (·.name ≠ ·.name))
    (hlimit : WithinLimit table columns foreignKeys) :
    ((ofColumns table columns foreignKeys).RoomForTables →
        (ofColumns table columns foreignKeys).KeepsTablesApart) ∧
      ((ofColumns table columns foreignKeys).RoomForLabels →
        (ofColumns table columns foreignKeys).KeepsOutputsApart) ∧
      ((ofColumns table columns foreignKeys).CutsTable →
        ¬(ofColumns table columns foreignKeys).KeepsTablesApart) ∧
      ((ofColumns table columns foreignKeys).CutsLabel →
        ¬(ofColumns table columns foreignKeys).KeepsOutputsApart) := by
  have hcolumn (planned : PlannedColumn)
      (hplanned : planned ∈ (ofColumns table columns foreignKeys).columns) :
      planned.column ∈ columns := mem_of_mem_plannedColumns hplanned
  refine ⟨fun hroom => ?_, fun hroom => ?_, ?_, ?_⟩
  · refine nodup_map_keptBytes nodup_tables fun name hname => ?_
    rw [tables, List.map_cons, List.mem_cons, List.map_map, List.mem_map] at hname
    rcases hname with rfl | ⟨join, hjoin, rfl⟩
    · exact hlimit _ List.mem_cons_self
    obtain ⟨planned, hplanned, hlabel⟩ := List.mem_filterMap.1 hjoin
    change join.qualifier.utf8ByteSize ≤ identifierLimit
    rcases qualifier_cases hplanned hlabel with heq | ⟨_, n, hn, heq⟩
    · have hkey := (labelledBy_of_mem_columns hplanned hlabel).1.foreignKey
      exact heq ▸ hlimit.referencedTable_le hkey
    · have hne : join.qualifier ≠ join.foreignKey.referencedTable :=
        heq ▸ numberedName_ne _ _
      have hle := utf8ByteSize_numberedName_le join.foreignKey.referencedTable hn
      exact heq ▸ Nat.le_trans hle (hroom join hjoin hne)
  · refine nodup_map_keptBytes (nodup_outputs hnames) fun name hname => ?_
    rcases mem_outputs.1 hname with ⟨planned, hplanned, rfl⟩ | ⟨join, hjoin, rfl⟩
    · exact hlimit.column_le (hcolumn planned hplanned)
    obtain ⟨planned, hplanned, hlabel⟩ := List.mem_filterMap.1 hjoin
    have hle := hroom planned hplanned join hlabel
    split at hle
    · next husual => exact husual ▸ hle
    · next husual =>
      obtain ⟨_, _, _, hsize⟩ := (output_cases hplanned hlabel).resolve_left husual
      exact Nat.le_trans hsize hle
  · rintro ⟨join, hjoin, hfull, hne⟩
    obtain ⟨planned, hplanned, hlabel⟩ := List.mem_filterMap.1 hjoin
    obtain ⟨htaken, n, _, heq⟩ := (qualifier_cases hplanned hlabel).resolve_left hne
    refine not_nodup_map_keptBytes hfull (suffix_ne_empty n) htaken ?_
    rw [← numberedName_eq_append, ← heq]
    exact List.mem_map.2 ⟨_, List.mem_cons_of_mem _ (List.mem_map_of_mem hjoin), rfl⟩
  · rintro ⟨planned, hplanned, join, hlabel, hfull, hlonger⟩
    have hjoin : join ∈ (ofColumns table columns foreignKeys).labelJoins :=
      List.mem_filterMap.2 ⟨planned, hplanned, hlabel⟩
    obtain ⟨rest, hrest, heq⟩ : ∃ rest ≠ "", join.output = planned.column.name ++ rest := by
      rcases output_cases hplanned hlabel with husual | ⟨rest, hrest, heq, _⟩
      · refine ⟨"_name", by decide, ?_⟩
        exact husual.trans (hlonger.resolve_left (absurd husual))
      · exact ⟨rest, hrest, heq⟩
    refine not_nodup_map_keptBytes hfull hrest ?_ ?_
    · exact mem_outputs.2 (.inl ⟨planned, hplanned, rfl⟩)
    · exact mem_outputs.2 (.inr ⟨join, hjoin, heq⟩)

end

/-! ## Tables that refer to themselves -/

/-- A name of so many letters, with an ending. -/
def lengthy (letter : Char) (n : Nat) (ending : String) : String :=
  String.ofList (List.replicate n letter) ++ ending

/-- A table whose columns refer to the table itself, which has labels. -/
def referringTo (table : String) (columns : List TrackedColumn) : List ForeignKey :=
  columns.map fun column => ⟨table, column.name, table, "id", some ⟨"name", "text"⟩⟩

/-- Two columns, of which the label of the first takes up all bytes. -/
def snugColumns : List TrackedColumn :=
  [⟨1, 1, 1, lengthy 'c' 58 "_id", "integer"⟩, ⟨2, 1, 2, lengthy 'd' 50 "_uid", "integer"⟩]

/-- A table with room for one digit is joined twice to itself, and the joined tables and the
    labels keep names of their own. -/
theorem kept_apart_snug :
    let table := lengthy 'n' 61 ""
    let foreignKeys := referringTo table snugColumns
    (snugColumns.Pairwise (·.name ≠ ·.name) ∧ WithinLimit table snugColumns foreignKeys) ∧
      ((ofColumns table snugColumns foreignKeys).RoomForTables ∧
        (ofColumns table snugColumns foreignKeys).RoomForLabels) ∧
      (ofColumns table snugColumns foreignKeys).KeepsTablesApart ∧
      (ofColumns table snugColumns foreignKeys).KeepsOutputsApart := by
  intro table foreignKeys
  have hnames : snugColumns.Pairwise (·.name ≠ ·.name) := by decide +kernel
  have hlimit : WithinLimit table snugColumns foreignKeys := by decide +kernel
  have htables : (ofColumns table snugColumns foreignKeys).RoomForTables := by decide +kernel
  have hlabels : (ofColumns table snugColumns foreignKeys).RoomForLabels := by decide +kernel
  obtain ⟨htablesApart, houtputsApart, -, -⟩ := kept_apart hnames hlimit
  exact ⟨⟨hnames, hlimit⟩, ⟨htables, hlabels⟩, htablesApart htables, houtputsApart hlabels⟩

/-- A column whose name leaves no room. -/
def fullColumns : List TrackedColumn := [⟨1, 1, 1, lengthy 'c' 63 "", "integer"⟩]

/-- A table of a name that leaves no room is joined to itself, by a column of such a name. The
    joined table is mistaken for the table itself, and the label for the column. -/
theorem not_kept_apart :
    let table := lengthy 'n' 63 ""
    let foreignKeys := referringTo table fullColumns
    (fullColumns.Pairwise (·.name ≠ ·.name) ∧ WithinLimit table fullColumns foreignKeys) ∧
      ¬(ofColumns table fullColumns foreignKeys).KeepsTablesApart ∧
      ¬(ofColumns table fullColumns foreignKeys).KeepsOutputsApart := by
  decide +kernel

end JoinPlan

end ShadowCatalog
