import Mathlib.Algebra.Ring.Nat
import Mathlib.Data.Finset.Card
import Mathlib.Order.Bounds.Basic
import ShadowCatalog.Proofs.Browse.JoinPlan

/-!
# The search for a free name

A free name is found by trying: first the name that is asked for, and then those that carry
the numbers from 2 on (`searchName?`). Nothing but a free name puts an end to the search, other
than that its numbers have 32 bits and may run out.

* What a search passes over is in use (`Tried`), so that what it finds, however long it takes,
  is the *first* free name (`FirstFree`).
* The names that it tries differ, so that it passes over no more of them than are in use
  (`Tried.next_le`). If there are fewer of these than numbers, it ends before the numbers do,
  with a name (`Tried.exists_found`).
* A name that is given is in use from then on (`giveName?`), so that names that are given in
  turn stay apart (`GivenApart`).

What is found is the name that a plan gives (`finds_first_free`), and joined tables and labels
are given theirs in turn (`JoinPlan.names_given`).
-/

namespace ShadowCatalog

/-- The greatest number of 32 bits, of which one is the sign. -/
def greatestNumber : Nat := 2 ^ 31 - 1

/-- The search for a free name that has come to `name`, and goes on with the number `next`
    after it. Nothing is found if `next` is needed and no number follows it. -/
def searchName? (base : String) (used : Finset String) (name : String) (next : Nat) :
    Option String :=
  if name ∈ used then
    if next < greatestNumber then searchName? base used (numberedName base next) (next + 1)
    else none
  else some name
termination_by greatestNumber - next

/-- A free name for what is called `base`, with the names that are in use from then on. -/
def giveName? (base : String) (used : Finset String) : Option (String × Finset String) :=
  (searchName? base used base 2).map fun name => (name, insert name used)

/-- Free names that are given in turn, with the names that are in use from then on. -/
def giveNames? (used : Finset String) : List String → Option (List String × Finset String)
  | [] => some ([], used)
  | base :: bases => do
    let (name, used) ← giveName? base used
    let (names, used) ← giveNames? used bases
    return (name :: names, used)

/-- The name is free. It is the one that is asked for if this one is, and otherwise it carries
    the least number, from 2 on, with which a name is free. -/
structure FirstFree (base : String) (used : Finset String) (name : String) : Prop where
  free : name ∉ used
  asked : base ∉ used → name = base
  numbered : base ∈ used →
    ∃ n, IsLeast {n | 2 ≤ n ∧ numberedName base n ∉ used} n ∧ name = numberedName base n

/-- Each name that is asked for gets one of its own, and just these come into use. -/
structure GivenApart (used : Finset String) (bases names : List String)
    (used' : Finset String) : Prop where
  length_eq : names.length = bases.length
  nodup : names.Nodup
  free : ∀ name ∈ names, name ∉ used
  used_eq : used' = used ∪ names.toFinset

variable {base name : String} {used : Finset String} {next : Nat}

/-! ## What is found -/

/-- What a search may have come to: the names that it passed over are in use. -/
inductive Tried (base : String) (used : Finset String) : String → Nat → Prop
  | asked : Tried base used base 2
  | numbered {n : Nat} (two_le : 2 ≤ n) (base_mem : base ∈ used)
      (before : ∀ m, 2 ≤ m → m < n → numberedName base m ∈ used) :
      Tried base used (numberedName base n) (n + 1)

namespace Tried

/-- If the name is in use as well, all names before the next one are. -/
theorem numbered_mem (h : Tried base used name next) (hname : name ∈ used) :
    2 ≤ next ∧ base ∈ used ∧ ∀ m, 2 ≤ m → m < next → numberedName base m ∈ used := by
  cases h with
  | asked => exact ⟨le_rfl, hname, fun m hle hlt => absurd hlt (Nat.not_lt.2 hle)⟩
  | @numbered n two_le base_mem before =>
    refine ⟨by omega, base_mem, fun m hle hlt => ?_⟩
    rcases Nat.eq_or_lt_of_le (Nat.le_of_lt_succ hlt) with rfl | hlt
    · exact hname
    · exact before m hle hlt

/-- One round of the search. -/
theorem round (h : Tried base used name next) (hname : name ∈ used) :
    Tried base used (numberedName base next) (next + 1) :=
  let ⟨two_le, base_mem, before⟩ := h.numbered_mem hname
  .numbered two_le base_mem before

theorem firstFree (h : Tried base used name next) (hfree : name ∉ used) :
    FirstFree base used name := by
  cases h with
  | asked => exact ⟨hfree, fun _ => rfl, fun hbase => absurd hbase hfree⟩
  | @numbered n two_le base_mem before =>
    refine ⟨hfree, fun hbase => absurd base_mem hbase, fun _ => ⟨n, ⟨⟨two_le, hfree⟩, ?_⟩, rfl⟩⟩
    exact fun m hm => Nat.not_lt.1 fun hlt => hm.2 (before m hm.1 hlt)

/-- Whatever a search finds is the first free name. -/
theorem firstFree_of_found (h : Tried base used name next) {found : String}
    (hfound : searchName? base used name next = some found) : FirstFree base used found := by
  fun_induction searchName? base used name next with
  | case1 name next hname hnext ih => exact ih (h.round hname) hfound
  | case2 => cases hfound
  | case3 name next hfree =>
    obtain rfl := Option.some.inj hfound
    exact h.firstFree hfree

/-- A search passes over no more names than are in use. -/
theorem next_le (h : Tried base used name next) (hname : name ∈ used) : next ≤ used.card + 1 := by
  obtain ⟨-, hbase, hbefore⟩ := h.numbered_mem hname
  simp only [← Finset.mem_toList] at hbase hbefore
  simpa using number_le hbase hbefore

/-- A search ends with a name if there are numbers for all the names that are in use. -/
theorem exists_found (hroom : used.card + 1 < greatestNumber) (h : Tried base used name next) :
    ∃ found, searchName? base used name next = some found := by
  fun_induction searchName? base used name next with
  | case1 name next hname hnext ih => exact ih (h.round hname)
  | case2 name next hname hnext =>
    -- The numbers do not run out: there are not as many names in use.
    have hle := h.next_le hname
    omega
  | case3 name next hfree => exact ⟨name, rfl⟩

end Tried

/-- There is only one first free name. -/
theorem FirstFree.unique {other : String} (h : FirstFree base used name)
    (hother : FirstFree base used other) : name = other := by
  by_cases hbase : base ∈ used
  · obtain ⟨n, hleast, rfl⟩ := h.numbered hbase
    obtain ⟨m, hleast', rfl⟩ := hother.numbered hbase
    rw [hleast.unique hleast']
  · rw [h.asked hbase, hother.asked hbase]

/-- A fresh name is the first free one. -/
theorem firstFree_freshName (base : String) (taken : List String) :
    FirstFree base taken.toFinset (freshName base taken) := by
  have hfree : freshName base taken ∉ taken.toFinset :=
    fun hmem => freshName_not_mem base taken (List.mem_toFinset.1 hmem)
  rcases freshName_first base taken with ⟨-, heq⟩ | ⟨htaken, n, hn, heq, hbefore⟩
  · rw [heq] at hfree ⊢
    exact Tried.asked.firstFree hfree
  · rw [heq] at hfree ⊢
    simp only [← List.mem_toFinset] at htaken hbefore
    exact (Tried.numbered hn htaken hbefore).firstFree hfree

/-! ## What is given -/

theorem of_giveName?_eq_some {used' : Finset String}
    (h : giveName? base used = some (name, used')) :
    FirstFree base used name ∧ used' = insert name used := by
  obtain ⟨found, hfound, heq⟩ := Option.map_eq_some_iff.1 h
  cases heq
  exact ⟨Tried.asked.firstFree_of_found hfound, rfl⟩

theorem exists_giveName? (base : String) (hroom : used.card + 1 < greatestNumber) :
    ∃ name, giveName? base used = some (name, insert name used) := by
  have hasked : Tried base used base 2 := .asked
  obtain ⟨name, hname⟩ := hasked.exists_found hroom
  exact ⟨name, by rw [giveName?, hname, Option.map_some]⟩

/-- The name that a plan gives is the one that is searched for. -/
theorem giveName?_toFinset (base : String) {taken : List String}
    (hroom : taken.toFinset.card + 1 < greatestNumber) :
    giveName? base taken.toFinset =
      some (freshName base taken, (freshName base taken :: taken).toFinset) := by
  obtain ⟨name, hname⟩ := exists_giveName? base hroom
  have hfirst := (of_giveName?_eq_some hname).1.unique (firstFree_freshName base taken)
  rw [hname, hfirst, List.toFinset_cons]

theorem giveNames?_cons_eq_some {bases names : List String} {used' : Finset String} :
    giveNames? used (base :: bases) = some (names, used') ↔
      ∃ name middle rest, giveName? base used = some (name, middle) ∧
        giveNames? middle bases = some (rest, used') ∧ name :: rest = names := by
  simp only [giveNames?, Option.bind_eq_bind, Option.bind_eq_some_iff, Option.pure_def]
  constructor
  · rintro ⟨⟨name, middle⟩, hname, ⟨rest, last⟩, hrest, heq⟩
    cases heq
    exact ⟨name, middle, rest, hname, hrest, rfl⟩
  · rintro ⟨name, middle, rest, hname, hrest, rfl⟩
    exact ⟨(name, middle), hname, (rest, used'), hrest, rfl⟩

theorem givenApart_of_giveNames? {bases names : List String} {used used' : Finset String}
    (h : giveNames? used bases = some (names, used')) : GivenApart used bases names used' := by
  induction bases generalizing used names with
  | nil =>
    cases h
    exact ⟨rfl, .nil, by simp, by simp⟩
  | cons base bases ih =>
    obtain ⟨name, middle, rest, hname, hrest, rfl⟩ := giveNames?_cons_eq_some.1 h
    obtain ⟨hfirst, rfl⟩ := of_giveName?_eq_some hname
    have hlater := ih hrest
    -- What is given later is free of the first name, as this one is in use by then.
    have hfree : ∀ other ∈ rest, other ≠ name ∧ other ∉ used := fun other hother =>
      not_or.1 (mt Finset.mem_insert.2 (hlater.free other hother))
    refine ⟨congrArg (· + 1) hlater.length_eq, List.nodup_cons.2 ⟨?_, hlater.nodup⟩, ?_, ?_⟩
    · exact fun hmem => (hfree name hmem).1 rfl
    · exact List.forall_mem_cons.2 ⟨hfirst.free, fun other hother => (hfree other hother).2⟩
    · rw [hlater.used_eq, List.toFinset_cons, Finset.insert_union, Finset.union_insert]

/-- Names are given as long as there are numbers for all those in use. -/
theorem exists_giveNames? {bases : List String} {used : Finset String}
    (hroom : used.card + bases.length < greatestNumber) :
    ∃ names used', giveNames? used bases = some (names, used') := by
  induction bases generalizing used with
  | nil => exact ⟨[], used, rfl⟩
  | cons base bases ih =>
    rw [List.length_cons] at hroom
    obtain ⟨name, hname⟩ : ∃ name, giveName? base used = some (name, insert name used) :=
      exists_giveName? base (by omega)
    have hcard := Finset.card_insert_le name used
    obtain ⟨names, used', hnames⟩ :
        ∃ names used', giveNames? (insert name used) bases = some (names, used') := ih (by omega)
    exact ⟨name :: names, used', giveNames?_cons_eq_some.2 ⟨name, _, names, hname, hnames, rfl⟩⟩

/-- Where fewer than `2 ^ 31 - 2` names are in use, a search ends with the first free name,
    which is the name that a plan gives, and this one alone comes into use. So names that are
    given in turn differ from each other and from all that were in use before, and they are
    given as long as there are numbers for them. -/
theorem finds_first_free (base : String) (used : Finset String)
    (hused : used.card < 2 ^ 31 - 2) :
    (∃ name, giveName? base used = some (name, insert name used) ∧ FirstFree base used name ∧
        ∀ taken : List String, taken.toFinset = used → freshName base taken = name) ∧
      ∀ bases, (∀ names used', giveNames? used bases = some (names, used') →
          GivenApart used bases names used') ∧
        (used.card + bases.length < 2 ^ 31 - 1 →
          ∃ names used', giveNames? used bases = some (names, used')) := by
  refine ⟨?_, fun bases => ⟨fun _ _ => givenApart_of_giveNames?, exists_giveNames?⟩⟩
  have hroom : used.card + 1 < greatestNumber := by
    rw [greatestNumber]
    omega
  obtain ⟨name, hname⟩ := exists_giveName? base hroom
  have hfirst := (of_giveName?_eq_some hname).1
  refine ⟨name, hname, hfirst, ?_⟩
  rintro taken rfl
  exact (firstFree_freshName base taken).unique hfirst

/-- Numbers that are in use are passed over, and one that was left out between them is given. -/
theorem finds_first_free_users :
    let used : Finset String := {"users", "users_2", "users_4"}
    used.card < 2 ^ 31 - 2 ∧
      giveName? "users" used = some ("users_3", insert "users_3" used) ∧
      used.card + ["users", "pets", "users"].length < 2 ^ 31 - 1 ∧
      ∃ names used', giveNames? used ["users", "pets", "users"] = some (names, used') ∧
        GivenApart used ["users", "pets", "users"] names used' := by
  intro used
  have hcard : used.card = 3 := rfl
  have hused : used.card < 2 ^ 31 - 2 := by omega
  have hroom : used.card + ["users", "pets", "users"].length < 2 ^ 31 - 1 := by
    rw [hcard]
    decide
  obtain ⟨⟨name, hname, -, hfresh⟩, hgiven⟩ := finds_first_free "users" used hused
  obtain rfl : "users_3" = name := hfresh ["users", "users_2", "users_4"] rfl
  obtain ⟨names, used', hnames⟩ := (hgiven ["users", "pets", "users"]).2 hroom
  exact ⟨hused, hname, hroom, names, used', hnames, (hgiven _).1 names used' hnames⟩

/-! ## The names in a plan -/

namespace JoinPlan

variable {table : String} {columns : List TrackedColumn} {foreignKeys : List ForeignKey}

/-- A name is asked for as that of a label: the usual one, or the one that is taken instead. -/
def AskedForLabel (base : String) (join : LabelJoin) : Prop :=
  base = labelName join.foreignKey.referencingColumn ∨
    base = join.foreignKey.referencingColumn ++ "_name"

theorem exists_askedForLabel (qualifiers outputs : List String) (key : ForeignKey)
    (label : Label) :
    ∃ base, AskedForLabel base (labelJoin qualifiers outputs key.referencingColumn key label) ∧
      (labelJoin qualifiers outputs key.referencingColumn key label).output =
        freshName base outputs := by
  refine ⟨_, ?_, rfl⟩
  split
  · exact .inr rfl
  · exact .inl rfl

/-- Joined tables and labels get their names in turn, from any column on. -/
theorem giveNames?_plannedColumns (qualifiers outputs : List String)
    (hqualifiers : qualifiers.toFinset.card + columns.length < greatestNumber)
    (houtputs : outputs.toFinset.card + columns.length < greatestNumber) :
    let joins := (plannedColumns foreignKeys qualifiers outputs columns).filterMap (·.labelJoin)
    (∃ used, giveNames? qualifiers.toFinset (joins.map (·.foreignKey.referencedTable)) =
        some (joins.map (·.qualifier), used)) ∧
      ∃ bases used, List.Forall₂ AskedForLabel bases joins ∧
        giveNames? outputs.toFinset bases = some (joins.map (·.output), used) := by
  fun_induction plannedColumns foreignKeys qualifiers outputs columns with
  | case1 => exact ⟨⟨_, rfl⟩, [], _, .nil, rfl⟩
  | case2 qualifiers outputs column columns hnone ih =>
    rw [List.length_cons] at hqualifiers houtputs
    exact ih (by omega) (by omega)
  | case3 qualifiers outputs column columns key label hsome join ih =>
    rw [List.length_cons] at hqualifiers houtputs
    -- One more name is in use for the columns that are left.
    have hqualifier := Finset.card_insert_le join.qualifier qualifiers.toFinset
    have houtput := Finset.card_insert_le join.output outputs.toFinset
    rw [← List.toFinset_cons] at hqualifier houtput
    obtain ⟨⟨used, htables⟩, bases, used', hbases, hlabels⟩ := ih (by omega) (by omega)
    have hcolumn : key.referencingColumn = column.name := (of_labelled?_eq_some hsome).2.1
    obtain ⟨base, hasked, hbase⟩ := exists_askedForLabel qualifiers outputs key label
    rw [hcolumn] at hasked hbase
    have htable : giveName? key.referencedTable qualifiers.toFinset =
        some (join.qualifier, (join.qualifier :: qualifiers).toFinset) :=
      giveName?_toFinset _ (by omega)
    have hlabel : giveName? base outputs.toFinset =
        some (join.output, (join.output :: outputs).toFinset) :=
      (show join.output = _ from hbase) ▸ giveName?_toFinset base (by omega)
    exact ⟨⟨used, giveNames?_cons_eq_some.2 ⟨_, _, _, htable, htables, rfl⟩⟩,
      base :: bases, used', .cons hasked hbases,
      giveNames?_cons_eq_some.2 ⟨_, _, _, hlabel, hlabels, rfl⟩⟩

/-- The joined tables of a plan get their names in turn, where that of the table is in use,
    and its labels get theirs where those of the columns are. -/
theorem names_given (hroom : 2 * columns.length < greatestNumber) :
    let joins := (ofColumns table columns foreignKeys).labelJoins
    (∃ used, giveNames? {table} (joins.map (·.foreignKey.referencedTable)) =
        some (joins.map (·.qualifier), used)) ∧
      ∃ bases used, List.Forall₂ AskedForLabel bases joins ∧
        giveNames? (columns.map (·.name)).toFinset bases = some (joins.map (·.output), used) := by
  have hgreatest : greatestNumber = 2 ^ 31 - 1 := rfl
  have hcard := (columns.map (·.name)).toFinset_card_le
  rw [List.length_map] at hcard
  refine giveNames?_plannedColumns [table] (columns.map (·.name)) ?_ ?_
  · change 1 + columns.length < greatestNumber
    omega
  · omega

end JoinPlan

end ShadowCatalog
