import Mathlib.Data.List.Chain
import Mathlib.Data.List.Induction
import Mathlib.Data.List.Nodup
import ShadowCatalog.Proofs.DisplayOrder

/-!
# The stable merge

What the usual policy makes of an order can be said without saying how it is made: first
come the listed columns that are still there, in the order in which they first occurred,
then the other columns by ascending id (`DisplayOrder.Merged`). These two parts cannot be
chosen in more than one way (`DisplayOrder.Merged.unique`), and the merge is made up of
them (`DisplayOrder.merged_merge`). So it is the only order of this kind
(`DisplayOrder.stableMerge_iff`).

An order may be merged early or late. Whatever an order in between had dropped or added,
nothing is left of it in the end, as long as the columns that come later are new
(`DisplayOrder.Fresh`): for one order in between (`DisplayOrder.merge_merge`), and then for
any number of them (`DisplayOrder.foldl_merge`).
-/

namespace ShadowCatalog

namespace DisplayOrder

variable {earlier order ids kept added : List ColumnId} {present : IdSet} {id : ColumnId}

/-- The two parts of a merged order: the present columns that were listed before, by their
    first occurrence, and the other present columns, by their id. -/
structure Merged (earlier : List ColumnId) (present : IdSet) (kept added : List ColumnId) :
    Prop where
  mem_kept : ∀ id, id ∈ kept ↔ id ∈ present ∧ id ∈ earlier
  kept_sorted : kept.Pairwise fun id other => earlier.idxOf id < earlier.idxOf other
  mem_added : ∀ id, id ∈ added ↔ id ∈ present ∧ id ∉ earlier
  added_sorted : added.Pairwise (· < ·)

/-- An order that lists each of the present columns once, in two such parts. -/
structure StableMerge (earlier : List ColumnId) (present : IdSet) (order : List ColumnId) :
    Prop where
  nodup : order.Nodup
  mem_iff : ∀ id, id ∈ order ↔ id ∈ present
  parts : ∃ kept added, order = kept ++ added ∧ Merged earlier present kept added

/-! ## There is one such order -/

/-- The columns by their first occurrence in a list differ. -/
theorem nodup_of_idxOf_sorted
    (h : kept.Pairwise fun id other => earlier.idxOf id < earlier.idxOf other) : kept.Nodup :=
  h.imp fun hlt heq => Nat.ne_of_lt hlt (congrArg earlier.idxOf heq)

namespace Merged

variable (h : Merged earlier present kept added)
include h

theorem mem_append : id ∈ kept ++ added ↔ id ∈ present := by
  rw [List.mem_append, h.mem_kept, h.mem_added, ← and_or_left]
  exact and_iff_left (Decidable.em _)

theorem nodup_append : (kept ++ added).Nodup := by
  refine List.nodup_append.2 ⟨nodup_of_idxOf_sorted h.kept_sorted,
    h.added_sorted.imp fun hlt => Int.ne_of_lt hlt, fun id hkept other hadded heq => ?_⟩
  exact ((h.mem_added other).1 hadded).2 (heq ▸ ((h.mem_kept id).1 hkept).2)

theorem stableMerge : StableMerge earlier present (kept ++ added) :=
  ⟨h.nodup_append, fun _ => h.mem_append, kept, added, rfl, h⟩

/-- Both parts are told by their members, as each is sorted in a way of its own. -/
theorem unique {kept' added' : List ColumnId} (h' : Merged earlier present kept' added') :
    kept = kept' ∧ added = added' := by
  constructor
  · refine List.Perm.eq_of_pairwise (fun id other _ _ hlt hgt => absurd hgt (Nat.lt_asymm hlt))
      h.kept_sorted h'.kept_sorted ?_
    exact (List.perm_ext_iff_of_nodup (nodup_of_idxOf_sorted h.kept_sorted)
      (nodup_of_idxOf_sorted h'.kept_sorted)).2 fun id => (h.mem_kept id).trans (h'.mem_kept id).symm
  · exact IdSet.eq_of_ascending h.added_sorted h'.added_sorted fun id =>
      (h.mem_added id).trans (h'.mem_added id).symm

end Merged

/-! ## The merge is this order -/

/-- A first element that is not among them moves all first occurrences on by one. -/
theorem idxOf_sorted_cons {first : ColumnId} (hfirst : first ∉ kept)
    (h : kept.Pairwise fun id other => ids.idxOf id < ids.idxOf other) :
    kept.Pairwise fun id other => (first :: ids).idxOf id < (first :: ids).idxOf other := by
  refine h.imp_of_mem fun {id other} hid hother hlt => ?_
  have hne : ∀ id ∈ kept, first ≠ id := fun id hid heq => hfirst (heq ▸ hid)
  rw [List.idxOf_cons_ne _ (hne id hid), List.idxOf_cons_ne _ (hne other hother)]
  exact Nat.succ_lt_succ hlt

/-- Whichever elements of a list are looked at, their first occurrences come in the order
    of the list. -/
theorem firstOccurrences_sorted (p : ColumnId → Bool) (placed ids : List ColumnId) :
    (firstOccurrences placed (ids.filter p)).Pairwise fun id other =>
      ids.idxOf id < ids.idxOf other := by
  induction ids generalizing placed with
  | nil => exact .nil
  | cons first ids ih =>
    cases hp : p first with
    | false =>
      rw [List.filter_cons_of_neg (by simp [hp])]
      refine idxOf_sorted_cons (fun hmem => ?_) (ih placed)
      have hfirst := (List.mem_filter.1 (mem_firstOccurrences.1 hmem).1).2
      exact Bool.false_ne_true (hp.symm.trans hfirst)
    | true =>
      rw [List.filter_cons_of_pos hp, firstOccurrences]
      split
      · next hplaced =>
        exact idxOf_sorted_cons (fun hmem => (mem_firstOccurrences.1 hmem).2 hplaced) (ih placed)
      · have hfree : first ∉ firstOccurrences (first :: placed) (ids.filter p) := fun hmem =>
          (mem_firstOccurrences.1 hmem).2 List.mem_cons_self
        refine List.pairwise_cons.2 ⟨fun other hother => ?_, idxOf_sorted_cons hfree (ih _)⟩
        have hne : first ≠ other := fun heq => hfree (heq ▸ hother)
        rw [List.idxOf_cons_self, List.idxOf_cons_ne _ hne]
        exact Nat.succ_pos _

/-- The merge is made up of the two parts. -/
theorem merged_merge (earlier : List ColumnId) (present : IdSet) :
    ∃ kept added, merge earlier present = kept ++ added ∧ Merged earlier present kept added := by
  have hkept : ∀ id, id ∈ firstOccurrences [] (earlier.filter (· ∈ present)) ↔
      id ∈ present ∧ id ∈ earlier := by
    intro id
    rw [mem_firstOccurrences, List.mem_filter, decide_eq_true_iff, and_comm (a := id ∈ earlier)]
    exact and_iff_left List.not_mem_nil
  refine ⟨_, _, rfl, hkept, firstOccurrences_sorted _ _ _, fun id => ?_, present.ascending.filter _⟩
  rw [List.mem_filter, decide_eq_true_iff, hkept, IdSet.mem_toList, not_and]
  exact and_congr_right fun hid => forall_prop_of_true hid

/-- The merge is the one and only order that lists each of the present columns once, first
    those that were listed before, by their first occurrence, and then the others, by
    ascending id. -/
theorem stableMerge_iff (earlier : List ColumnId) (present : IdSet) (order : List ColumnId) :
    StableMerge earlier present order ↔ order = merge earlier present := by
  obtain ⟨kept, added, hmerge, hparts⟩ := merged_merge earlier present
  rw [hmerge]
  constructor
  · intro h
    obtain ⟨kept', added', rfl, hparts'⟩ := h.parts
    obtain ⟨rfl, rfl⟩ := hparts'.unique hparts
    rfl
  · rintro rfl
    exact hparts.stableMerge

example : merge [7, 3, 9, 3, 1] (.ofList [4, 3, 2, 1]) = [3, 1, 2, 4] := by decide

/-! ## Merging on the way -/

/-- New columns come after the old ones: what is in `later` only was not listed before, and
    its ids are greater than those in `sooner`. -/
def Fresh (earlier : List ColumnId) (sooner later : IdSet) : Prop :=
  ∀ id ∈ later, id ∉ sooner → id ∉ earlier ∧ ∀ old ∈ sooner, old < id

/-- The parts of an order that is merged twice. What the first merge kept is kept from the
    start, and what it added comes before what the second one adds. -/
theorem Merged.again {sooner later : IdSet} (h : Merged earlier sooner kept added)
    (hfresh : Fresh earlier sooner later) :
    Merged earlier later (kept.filter (· ∈ later))
      (added.filter (· ∈ later) ++ later.toList.filter (· ∉ kept ++ added)) where
  mem_kept id := by
    rw [List.mem_filter, decide_eq_true_iff, h.mem_kept, and_comm (a := id ∈ later)]
    constructor
    · exact fun ⟨⟨_, hearlier⟩, hlater⟩ => ⟨hearlier, hlater⟩
    · rintro ⟨hearlier, hlater⟩
      refine ⟨⟨?_, hearlier⟩, hlater⟩
      by_contra hnew
      exact (hfresh id hlater hnew).1 hearlier
  kept_sorted := h.kept_sorted.filter _
  mem_added id := by
    rw [List.mem_append, List.mem_filter, List.mem_filter, decide_eq_true_iff, decide_eq_true_iff,
      h.mem_added, h.mem_append, IdSet.mem_toList]
    constructor
    · rintro (⟨⟨_, hnew⟩, hlater⟩ | ⟨hlater, hnew⟩)
      · exact ⟨hlater, hnew⟩
      · exact ⟨hlater, (hfresh id hlater hnew).1⟩
    · rintro ⟨hlater, hearlier⟩
      by_cases hsooner : id ∈ sooner
      · exact .inl ⟨⟨hsooner, hearlier⟩, hlater⟩
      · exact .inr ⟨hlater, hsooner⟩
  added_sorted := by
    refine List.pairwise_append.2 ⟨h.added_sorted.filter _, later.ascending.filter _, ?_⟩
    intro old hold id hid
    rw [List.mem_filter, decide_eq_true_iff, h.mem_append, IdSet.mem_toList] at hid
    exact (hfresh id hid.1 hid.2).2 old ((h.mem_added old).1 (List.mem_filter.1 hold).1).1

/-- A merged order is merged again into what its first order would have become. -/
theorem Merged.merge_append {sooner later : IdSet} (h : Merged earlier sooner kept added)
    (hfresh : Fresh earlier sooner later) : merge (kept ++ added) later = merge earlier later := by
  obtain ⟨kept', added', hlater, hparts⟩ := merged_merge earlier later
  obtain ⟨rfl, rfl⟩ := hparts.unique (h.again hfresh)
  rw [hlater, merge_of_nodup h.nodup_append, List.filter_append, List.append_assoc]

/-- An order in between leaves no trace, if what comes later is new. -/
theorem merge_merge (earlier : List ColumnId) (sooner later : IdSet)
    (hfresh : Fresh earlier sooner later) :
    merge (merge earlier sooner) later = merge earlier later := by
  obtain ⟨kept, added, hsooner, hparts⟩ := merged_merge earlier sooner
  rw [hsooner, hparts.merge_append hfresh]

/-- Column `4` is dropped on the way, and `8` and `9` come. -/
theorem merge_merge_dropped :
    Fresh [5, 7, 2, 5] (.ofList [1, 2, 4, 5]) (.ofList [9, 8, 5, 2, 1]) ∧
      merge [5, 7, 2, 5] (.ofList [1, 2, 4, 5]) = [5, 2, 1, 4] ∧
      merge (merge [5, 7, 2, 5] (.ofList [1, 2, 4, 5])) (.ofList [9, 8, 5, 2, 1]) =
        merge [5, 7, 2, 5] (.ofList [9, 8, 5, 2, 1]) := by
  have hfresh : Fresh [5, 7, 2, 5] (.ofList [1, 2, 4, 5]) (.ofList [9, 8, 5, 2, 1]) := by
    simp [Fresh]
  exact ⟨hfresh, by decide, merge_merge _ _ _ hfresh⟩

/-- Of any number of orders in between none leaves a trace, if from one to the next only new
    columns come. -/
theorem foldl_merge (earlier : List ColumnId) (sooner : List IdSet) (later : IdSet)
    (hfresh : (sooner ++ [later]).IsChain (Fresh earlier)) :
    (sooner ++ [later]).foldl merge earlier = merge earlier later := by
  induction sooner using List.reverseRecOn generalizing later with
  | nil => rfl
  | append_singleton sooner last ih =>
    obtain ⟨hsooner, -, hlast⟩ := List.isChain_append.1 hfresh
    obtain ⟨kept, added, hmerge, hparts⟩ := merged_merge earlier last
    rw [List.foldl_append, ih last hsooner, hmerge, List.foldl_cons, List.foldl_nil,
      hparts.merge_append (hlast last (by simp) later (by simp))]

end DisplayOrder

end ShadowCatalog
