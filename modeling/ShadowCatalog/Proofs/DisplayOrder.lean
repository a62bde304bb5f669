import Mathlib.Data.List.Nodup
import Mathlib.Data.List.Perm.Subperm
import Mathlib.Tactic.Common
import ShadowCatalog.DisplayOrder

/-!
# Orders that list each column once

A policy may be asked for two things. One is that it lists each of the present
columns once, whatever the order was before (`OrderPolicy.ListsEach`). The other is
that it leaves its own orders as they are (`OrderPolicy.Stable`). The stable merge
does both (`DisplayOrder.merge_listsEach`, `DisplayOrder.merge_stable`), as it
leaves any order as it is that lists each column once (`DisplayOrder.merge_of_perm`).

An order given by hand is accepted exactly if it lists each column once
(`DisplayOrder.validate_eq_ok_iff`). If it is refused, that is for its length or, if it is as
long as it should be, for the first place that is taken amiss (`DisplayOrder.Refused`).
-/

namespace ShadowCatalog

theorem IdSet.nodup_toList (ids : IdSet) : ids.toList.Nodup :=
  ids.ascending.imp fun hlt => Int.ne_of_lt hlt

theorem IdSet.toList_ofList_perm {ids : List ColumnId} (h : ids.Nodup) :
    (IdSet.ofList ids).toList.Perm ids :=
  (List.perm_ext_iff_of_nodup (nodup_toList _) h).2 fun _ => mem_toList.trans mem_ofList

/-- Each of the present columns is listed once. -/
def OrderPolicy.ListsEach (policy : OrderPolicy) : Prop :=
  ∀ order ids, (policy order ids).Perm ids.toList

/-- Orders that the policy has made stay as they are while the columns do. -/
def OrderPolicy.Stable (policy : OrderPolicy) : Prop :=
  ∀ order ids, policy (policy order ids) ids = policy order ids

namespace DisplayOrder

variable {placed ids : List ColumnId} {id : ColumnId}

theorem mem_firstOccurrences :
    id ∈ firstOccurrences placed ids ↔ id ∈ ids ∧ id ∉ placed := by
  induction ids generalizing placed with
  | nil => simp [firstOccurrences]
  | cons first ids ih =>
    rw [firstOccurrences]
    split
    · next hplaced =>
      rw [ih, List.mem_cons]
      refine and_congr_left fun hid => (or_iff_right fun heq => hid ?_).symm
      exact heq ▸ hplaced
    · next hfree =>
      rw [List.mem_cons, ih, List.mem_cons, List.mem_cons]
      by_cases heq : id = first
      · simp [heq, hfree]
      · simp [heq]

theorem nodup_firstOccurrences (placed ids : List ColumnId) :
    (firstOccurrences placed ids).Nodup := by
  induction ids generalizing placed with
  | nil => exact .nil
  | cons first ids ih =>
    rw [firstOccurrences]
    split
    · exact ih placed
    · refine List.nodup_cons.2 ⟨fun hmem => ?_, ih _⟩
      exact (mem_firstOccurrences.1 hmem).2 List.mem_cons_self

/-- A list without repetitions is that of its first occurrences. -/
theorem firstOccurrences_eq_self (h : ids.Nodup) (hplaced : ∀ id ∈ ids, id ∉ placed) :
    firstOccurrences placed ids = ids := by
  induction ids generalizing placed with
  | nil => rfl
  | cons first ids ih =>
    rw [List.nodup_cons] at h
    rw [List.forall_mem_cons] at hplaced
    rw [firstOccurrences, if_neg hplaced.1, ih h.2 fun other hother => ?_]
    refine List.not_mem_cons_of_ne_of_not_mem (fun heq => h.1 ?_) (hplaced.2 other hother)
    exact heq ▸ hother

/-- The merge lists each column once. -/
theorem merge_listsEach : OrderPolicy.ListsEach merge := by
  intro order present
  refine (List.perm_ext_iff_of_nodup ?_ present.nodup_toList).2 fun id => ?_
  · refine List.nodup_append.2 ⟨nodup_firstOccurrences _ _, present.nodup_toList.filter _, ?_⟩
    intro id hid other hother heq
    exact of_decide_eq_true (List.mem_filter.1 hother).2 (heq ▸ hid)
  · rw [merge, List.mem_append, List.mem_filter, decide_eq_true_iff, mem_firstOccurrences,
      List.mem_filter, decide_eq_true_iff, IdSet.mem_toList]
    by_cases hid : id ∈ order <;> simp [hid]

/-- Of an order without repetitions, the merge keeps the present columns as they stand. -/
theorem merge_of_nodup {order : List ColumnId} (h : order.Nodup) (present : IdSet) :
    merge order present = order.filter (· ∈ present) ++ present.toList.filter (· ∉ order) := by
  have hkept : firstOccurrences [] (order.filter (· ∈ present)) = order.filter (· ∈ present) :=
    firstOccurrences_eq_self (h.filter _) fun _ _ => List.not_mem_nil
  rw [merge, hkept]
  congr 1
  refine List.filter_congr fun id hid => decide_eq_decide.2 (not_congr ?_)
  rw [List.mem_filter, decide_eq_true_iff]
  exact and_iff_left (IdSet.mem_toList.1 hid)

/-- The merge leaves an order as it is that lists each column once. -/
theorem merge_of_perm {order : List ColumnId} {present : IdSet}
    (h : order.Perm present.toList) : merge order present = order := by
  have hall : order.filter (· ∈ present) = order :=
    List.filter_eq_self.2 fun id hid => decide_eq_true (h.subset hid)
  have hrest : present.toList.filter (· ∉ order) = [] :=
    List.filter_eq_nil_iff.2 fun id hid => by simpa using h.symm.subset hid
  rw [merge_of_nodup (h.nodup_iff.2 present.nodup_toList), hall, hrest, List.append_nil]

theorem merge_stable : OrderPolicy.Stable merge :=
  fun order ids => merge_of_perm (merge_listsEach order ids)

/-! ## Orders that go on -/

/-- An order goes on from an earlier one: what is in both comes first, in the earlier
    order, and then follows what was not listed before. -/
def Extends (earlier later : List ColumnId) : Prop :=
  ∃ rest, later = earlier.filter (· ∈ later) ++ rest ∧ ∀ id ∈ rest, id ∉ earlier

theorem Extends.refl (order : List ColumnId) : Extends order order :=
  ⟨[], by rw [List.append_nil, List.filter_eq_self.2 fun id hid => decide_eq_true hid],
    fun _ hid => absurd hid List.not_mem_nil⟩

/-- An order goes on from one before the earlier one, if nothing came back. -/
theorem Extends.trans {first middle last : List ColumnId} (h : Extends first middle)
    (h' : Extends middle last) (hback : ∀ id ∈ first, id ∈ last → id ∈ middle) :
    Extends first last := by
  obtain ⟨rest, heq, hnew⟩ := h
  obtain ⟨rest', heq', hnew'⟩ := h'
  have hkept : (first.filter (· ∈ middle)).filter (· ∈ last) = first.filter (· ∈ last) := by
    rw [List.filter_filter]
    refine List.filter_congr fun id hid => ?_
    by_cases hlast : id ∈ last
    · simp [hlast, hback id hid hlast]
    · simp [hlast]
  have hmiddle : middle.filter (· ∈ last) =
      first.filter (· ∈ last) ++ rest.filter (· ∈ last) := by
    rw [← hkept, ← List.filter_append, ← heq]
  refine ⟨rest.filter (· ∈ last) ++ rest', ?_, fun id hid => ?_⟩
  · rw [← List.append_assoc, ← hmiddle]
    exact heq'
  · rcases List.mem_append.1 hid with hid | hid
    · exact hnew id (List.mem_filter.1 hid).1
    · have hlast : id ∈ last := heq' ▸ List.mem_append_right _ hid
      exact fun hfirst => hnew' id hid (hback id hfirst hlast)

/-- The merge goes on from the earlier order. -/
theorem merge_extends {earlier : List ColumnId} (h : earlier.Nodup) (present : IdSet) :
    Extends earlier (merge earlier present) := by
  refine ⟨present.toList.filter (· ∉ earlier), ?_, fun id hid => ?_⟩
  · conv_lhs => rw [merge_of_nodup h present]
    congr 1
    refine List.filter_congr fun id _ => ?_
    rw [decide_eq_decide, (merge_listsEach earlier present).mem_iff, IdSet.mem_toList]
  · exact of_decide_eq_true (List.mem_filter.1 hid).2

/-! ## Orders given by hand -/

theorem of_firstMisplaced_eq_ok {table : String} {columns : IdSet} {seen requested : List ColumnId}
    (h : firstMisplaced table columns seen requested = .ok ()) :
    requested.Nodup ∧ ∀ id ∈ requested, id ∈ columns ∧ id ∉ seen := by
  induction requested generalizing seen with
  | nil => exact ⟨.nil, fun _ hid => absurd hid List.not_mem_nil⟩
  | cons first requested ih =>
    rw [firstMisplaced] at h
    split at h
    · cases h
    · next hcolumn =>
      split at h
      · cases h
      · next hfree =>
        obtain ⟨hnodup, hall⟩ := ih h
        refine ⟨List.nodup_cons.2 ⟨fun hmem => ?_, hnodup⟩, List.forall_mem_cons.2
          ⟨⟨not_not.1 hcolumn, hfree⟩, fun id hid => ?_⟩⟩
        · exact (hall first hmem).2 List.mem_cons_self
        · exact ⟨(hall id hid).1, fun hseen => (hall id hid).2 (List.mem_cons_of_mem _ hseen)⟩

/-- An order that is accepted lists each column once. -/
theorem perm_of_validate {table : String} {columns : IdSet} {requested : List ColumnId}
    (h : validate table columns requested = .ok ()) : requested.Perm columns.toList := by
  rw [validate] at h
  split at h
  · cases h
  · next hlength =>
    obtain ⟨hnodup, hall⟩ := of_firstMisplaced_eq_ok h
    -- A list of that length which repeats nothing leaves nothing out.
    have hsubperm := List.Nodup.subperm hnodup fun id hid => (hall id hid).1
    exact hsubperm.perm_of_length_le (Nat.le_of_eq (not_not.1 hlength).symm)

/-- Columns of the table that are listed once are passed over. -/
theorem firstMisplaced_append {table : String} {columns : IdSet} {seen before : List ColumnId}
    (hnodup : before.Nodup) (hbefore : ∀ id ∈ before, id ∈ columns ∧ id ∉ seen)
    (rest : List ColumnId) :
    firstMisplaced table columns seen (before ++ rest) =
      firstMisplaced table columns (before.reverse ++ seen) rest := by
  induction before generalizing seen with
  | nil => rfl
  | cons first before ih =>
    rw [List.nodup_cons] at hnodup
    rw [List.forall_mem_cons] at hbefore
    rw [List.cons_append, firstMisplaced, if_neg (not_not.2 hbefore.1.1), if_neg hbefore.1.2,
      ih hnodup.2 fun id hid => ⟨(hbefore.2 id hid).1, ?_⟩, List.reverse_cons, List.append_assoc,
      List.singleton_append]
    refine List.not_mem_cons_of_ne_of_not_mem (fun heq => hnodup.1 ?_) (hbefore.2 id hid).2
    exact heq ▸ hid

/-- An order is accepted exactly if it lists each column once. -/
theorem validate_eq_ok_iff {table : String} {columns : IdSet} {requested : List ColumnId} :
    validate table columns requested = .ok () ↔ requested.Perm columns.toList := by
  refine ⟨perm_of_validate, fun hperm => ?_⟩
  have hlength : requested.length = columns.size := hperm.length_eq
  have hall : firstMisplaced table columns [] (requested ++ []) = _ :=
    firstMisplaced_append (hperm.nodup_iff.2 columns.nodup_toList)
      (fun id hid => ⟨hperm.subset hid, List.not_mem_nil⟩) []
  rw [List.append_nil] at hall
  rw [validate, if_neg (not_not.2 hlength), hall, firstMisplaced]

/-- Why an order is refused. If it is as long as it should be, the first place decides at which
    no column of the table is listed, or one that was listed before. -/
inductive Refused (table : String) (columns : IdSet) (requested : List ColumnId) :
    ValidationError → Prop
  | length : requested.length ≠ columns.size →
      Refused table columns requested
        (.columnCountMismatch table columns.size requested.length)
  | foreign {before after : List ColumnId} {id : ColumnId} :
      requested.length = columns.size → requested = before ++ id :: after →
      before.Nodup → (∀ other ∈ before, other ∈ columns) → id ∉ columns →
      Refused table columns requested (.invalidValue "display_order"
        ("column " ++ toString id ++ " does not belong to " ++ table))
  | repeated {before after : List ColumnId} {id : ColumnId} :
      requested.length = columns.size → requested = before ++ id :: after →
      before.Nodup → (∀ other ∈ before, other ∈ columns) → id ∈ before →
      Refused table columns requested
        (.invalidValue "display_order" ("column " ++ toString id ++ " listed twice"))

/-- The first id that is misplaced comes after columns that are listed once. -/
theorem of_firstMisplaced_eq_error {table : String} {columns : IdSet}
    {seen requested : List ColumnId} {cause : ValidationError}
    (h : firstMisplaced table columns seen requested = .error cause) :
    ∃ before id after, requested = before ++ id :: after ∧ before.Nodup ∧
      (∀ other ∈ before, other ∈ columns ∧ other ∉ seen) ∧
      (id ∉ columns ∧ cause = .invalidValue "display_order"
          ("column " ++ toString id ++ " does not belong to " ++ table) ∨
        (id ∈ seen ∨ id ∈ before) ∧ cause = .invalidValue "display_order"
          ("column " ++ toString id ++ " listed twice")) := by
  induction requested generalizing seen with
  | nil => cases h
  | cons first requested ih =>
    rw [firstMisplaced] at h
    split at h
    · next hforeign =>
      exact ⟨[], first, requested, rfl, .nil, fun _ hid => absurd hid List.not_mem_nil,
        .inl ⟨hforeign, (Except.error.inj h).symm⟩⟩
    · next hcolumn =>
      split at h
      · next hseen =>
        exact ⟨[], first, requested, rfl, .nil, fun _ hid => absurd hid List.not_mem_nil,
          .inr ⟨.inl hseen, (Except.error.inj h).symm⟩⟩
      · next hfree =>
        obtain ⟨before, id, after, rfl, hnodup, hbefore, hculprit⟩ := ih h
        have hfirst : first ∉ before := fun hmem => (hbefore first hmem).2 List.mem_cons_self
        refine ⟨first :: before, id, after, rfl, List.nodup_cons.2 ⟨hfirst, hnodup⟩,
          List.forall_mem_cons.2 ⟨⟨not_not.1 hcolumn, hfree⟩, fun other hother => ?_⟩, ?_⟩
        · obtain ⟨hmem, hnot⟩ := hbefore other hother
          exact ⟨hmem, fun hseen => hnot (List.mem_cons_of_mem _ hseen)⟩
        · refine hculprit.imp_right fun ⟨hrepeated, hcause⟩ => ⟨?_, hcause⟩
          rw [List.mem_cons] at hrepeated ⊢
          tauto

/-- An order is refused for one reason. -/
theorem validate_eq_error_iff {table : String} {columns : IdSet} {requested : List ColumnId}
    {cause : ValidationError} :
    validate table columns requested = .error cause ↔ Refused table columns requested cause := by
  constructor
  · intro h
    rw [validate] at h
    split at h
    · next hlength => exact Except.error.inj h ▸ .length hlength
    · next hlength =>
      rw [not_ne_iff] at hlength
      obtain ⟨before, id, after, heq, hnodup, hbefore, ⟨hforeign, rfl⟩ | ⟨hrepeated, rfl⟩⟩ :=
        of_firstMisplaced_eq_error h
      · exact .foreign hlength heq hnodup (fun other hother => (hbefore other hother).1) hforeign
      · exact .repeated hlength heq hnodup (fun other hother => (hbefore other hother).1)
          (hrepeated.resolve_left List.not_mem_nil)
  · intro h
    cases h with
    | length hlength => rw [validate, if_pos hlength]
    | @foreign before after id hlength heq hnodup hbefore hforeign =>
      rw [validate, if_neg (not_not.2 hlength), heq, firstMisplaced_append hnodup
        fun other hother => ⟨hbefore other hother, List.not_mem_nil⟩, firstMisplaced,
        if_pos hforeign]
    | @repeated before after id hlength heq hnodup hbefore hrepeated =>
      rw [validate, if_neg (not_not.2 hlength), heq, firstMisplaced_append hnodup
        fun other hother => ⟨hbefore other hother, List.not_mem_nil⟩, firstMisplaced,
        if_neg (not_not.2 (hbefore id hrepeated)), if_pos (by simpa using hrepeated)]

/-- Of an id that is no column and one that is repeated, the one that comes first decides. -/
example : (validate "items" (.ofList [1, 2, 3]) [1, 9, 1],
    validate "items" (.ofList [1, 2, 3]) [1, 1, 9]) =
      (.error (.invalidValue "display_order" "column 9 does not belong to items"),
        .error (.invalidValue "display_order" "column 1 listed twice")) := by
  rfl

end DisplayOrder

end ShadowCatalog
