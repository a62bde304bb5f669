import Mathlib.Data.List.Nodup
import Mathlib.Data.List.Perm.Subperm
import Mathlib.Tactic.Common
import ShadowCatalog.Browse.Naming

/-!
# Fresh names

A fresh name is free (`freshName_not_mem`). Names with different numbers differ, so not
all of them, from any number on, can be taken by a list with fewer names than numbers
are tried. And it is the first free one: the names that would have come before it are
taken (`freshName_first`), so that its number is bounded by their count (`freshName_cases`).
-/

namespace ShadowCatalog

theorem numberedName_injective (base : String) : Function.Injective (numberedName base) := by
  intro n m h
  have hdigits : Nat.toDigits 10 n = Nat.toDigits 10 m := by
    simpa [numberedName] using congrArg String.toList h
  rw [← @Nat.ofDigitChars_ten_toDigits n, hdigits, Nat.ofDigitChars_ten_toDigits]

/-- If what was found is taken, all the names that were tried are. -/
theorem numberedName_mem_of_freshNumbered {base : String} {taken : List String} {bound n : Nat}
    (h : freshNumbered base taken bound n ∈ taken) :
    ∀ m, n ≤ m → m ≤ n + bound → numberedName base m ∈ taken := by
  induction bound generalizing n with
  | zero =>
    intro m hle hge
    obtain rfl : m = n := by omega
    exact h
  | succ bound ih =>
    rw [freshNumbered] at h
    split at h
    · next hn =>
      intro m hle hge
      rcases Nat.eq_or_lt_of_le hle with rfl | hlt
      · exact hn
      · exact ih h m hlt (by omega)
    · next hn => exact absurd h hn

theorem freshNumbered_not_mem (base : String) (taken : List String) (n : Nat) :
    freshNumbered base taken taken.length n ∉ taken := by
  intro h
  have htried : (List.range' n (taken.length + 1)).map (numberedName base) ⊆ taken := by
    intro name hname
    obtain ⟨m, hm, rfl⟩ := List.mem_map.1 hname
    rw [List.mem_range'_1] at hm
    exact numberedName_mem_of_freshNumbered h m hm.1 (by omega)
  have hnodup : ((List.range' n (taken.length + 1)).map (numberedName base)).Nodup :=
    (List.nodup_range' 1).map (numberedName_injective base)
  have hlength := (hnodup.subperm htried).length_le
  rw [List.length_map, List.length_range'] at hlength
  omega

/-- A fresh name is not taken. -/
theorem freshName_not_mem (base : String) (taken : List String) : freshName base taken ∉ taken := by
  rw [freshName]
  split
  · exact freshNumbered_not_mem base taken 2
  · assumption

/-- The names with smaller numbers, from the first one tried on, are taken. -/
theorem freshNumbered_first (base : String) (taken : List String) (bound n : Nat) :
    ∃ m, n ≤ m ∧ freshNumbered base taken bound n = numberedName base m ∧
      ∀ i, n ≤ i → i < m → numberedName base i ∈ taken := by
  induction bound generalizing n with
  | zero => exact ⟨n, Nat.le_refl n, rfl, fun i hle hlt => absurd hlt (Nat.not_lt.2 hle)⟩
  | succ bound ih =>
    rw [freshNumbered]
    split
    · next htaken =>
      obtain ⟨m, hle, heq, hbefore⟩ := ih (n + 1)
      refine ⟨m, by omega, heq, fun i hi hlt => ?_⟩
      rcases Nat.eq_or_lt_of_le hi with rfl | hi
      · exact htaken
      · exact hbefore i hi hlt
    · exact ⟨n, Nat.le_refl n, rfl, fun i hle hlt => absurd hlt (Nat.not_lt.2 hle)⟩

/-- The name itself is fresh if it is free. Otherwise the fresh name carries the least
    number, from 2 on, with which it is free. -/
theorem freshName_first (base : String) (taken : List String) :
    base ∉ taken ∧ freshName base taken = base ∨
      base ∈ taken ∧ ∃ n, 2 ≤ n ∧ freshName base taken = numberedName base n ∧
        ∀ m, 2 ≤ m → m < n → numberedName base m ∈ taken := by
  rw [freshName]
  split
  · next htaken => exact .inr ⟨htaken, freshNumbered_first base taken taken.length 2⟩
  · next hfree => exact .inl ⟨hfree, rfl⟩

/-- What is added to a name. -/
theorem numberedName_eq_append (base : String) (n : Nat) :
    numberedName base n = base ++ ("_" ++ toString n) := String.append_assoc

theorem suffix_ne_empty (n : Nat) : "_" ++ toString n ≠ "" := by
  intro h
  have hsize := congrArg String.utf8ByteSize h
  rw [String.utf8ByteSize_append] at hsize
  exact absurd (Nat.eq_zero_of_add_eq_zero_right hsize) (by decide)

theorem numberedName_ne (base : String) (n : Nat) : numberedName base n ≠ base := by
  rw [numberedName_eq_append]
  exact fun h => suffix_ne_empty n (String.append_eq_left_iff.1 h)

/-- The names that come before the first free one are taken, so that its number is not greater
    than their count allows. -/
theorem number_le {base : String} {taken : List String} {n : Nat} (hbase : base ∈ taken)
    (hbefore : ∀ m, 2 ≤ m → m < n → numberedName base m ∈ taken) : n ≤ taken.length + 1 := by
  have htried : base :: (List.range' 2 (n - 2)).map (numberedName base) ⊆ taken := by
    refine List.cons_subset.2 ⟨hbase, fun name hname => ?_⟩
    obtain ⟨m, hm, rfl⟩ := List.mem_map.1 hname
    rw [List.mem_range'_1] at hm
    exact hbefore m hm.1 (by omega)
  have hnodup : (base :: (List.range' 2 (n - 2)).map (numberedName base)).Nodup := by
    refine List.nodup_cons.2 ⟨fun hmem => ?_,
      (List.nodup_range' 1).map (numberedName_injective base)⟩
    obtain ⟨m, _, heq⟩ := List.mem_map.1 hmem
    exact numberedName_ne base m heq
  have hlength := (hnodup.subperm htried).length_le
  rw [List.length_cons, List.length_map, List.length_range'] at hlength
  omega

/-- A name is fresh itself, or it is taken and gets a number that is not greater than the
    count of names that are taken allows. -/
theorem freshName_cases (base : String) (taken : List String) :
    freshName base taken = base ∨
      base ∈ taken ∧ ∃ n ≤ taken.length + 1, freshName base taken = numberedName base n := by
  rcases freshName_first base taken with ⟨-, heq⟩ | ⟨htaken, n, -, heq, hbefore⟩
  · exact .inl heq
  · exact .inr ⟨htaken, n, number_le htaken hbefore, heq⟩

end ShadowCatalog
