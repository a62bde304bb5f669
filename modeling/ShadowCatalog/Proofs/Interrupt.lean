import Mathlib.Data.ENat.Lattice
import Mathlib.Data.List.Sort
import ShadowCatalog.Interrupt

/-!
# The earliest event wins

A computation *ends* with a result at a moment, or never: before that moment all polls
give nothing, and the first poll in it gives the result (`Timed.Ends`). How a computation
ends is made up from how its parts do (`Timed.Ends.either`), and it says what comes of it
(`Timed.Ends.outcome_eq`).

The wait for a flag ends after the first signal that raises it. What carries this is that
a wait polled at any moments, in order, is over exactly if the flag was up in one of them
(`ShutdownFlag.watch_eq_none_iff`): it neither misses a value nor sees one twice, and when
the sender is gone it still has seen the last value. Since the flag is polled after each
signal, no raise is lost, however soon the flag is lowered again.

So of the flag, the work and the deadline the earliest decides
(`ShutdownFlag.earliest_wins`).
-/

namespace ShadowCatalog

variable {α β : Type}

theorem Duration.ticks_ofMilliseconds (n : Nat) : (ofMilliseconds n).ticks = n := by
  simp only [ticks, ofMilliseconds]
  omega

/-! ## How a computation ends -/

namespace Timed

/-- Work that gives a result at a moment, or never gives one. -/
def due : Option (Nat × α) → Timed α
  | none => never
  | some (moment, result) => finishing moment result

/-- The moment of an end. -/
def momentOf (ending : Option (Nat × α)) : ℕ∞ := ending.elim ⊤ (·.1)

/-- Of two ends the one that comes first, and of two in one moment the first one. -/
def sooner (first second : Option (Nat × α)) : Option (Nat × α) :=
  if momentOf first ≤ momentOf second then first else second

/-- Polled at any moments, in order, the work ends in this way. -/
structure Ends (work : Timed α) (ending : Option (Nat × α)) : Prop where
  pending : ∀ (earlier : List Nat) (now : Nat), (earlier ++ [now]).Pairwise (· ≤ ·) →
    now < momentOf ending → work.poll earlier now = none
  ready : ∀ (earlier : List Nat) moment result, ending = some (moment, result) →
    (earlier ++ [moment]).Pairwise (· ≤ ·) → (∀ past ∈ earlier, past < moment) →
    work.poll earlier moment = some result
  polled : ∀ moment result, ending = some (moment, result) → moment ∈ 0 :: work.moments

theorem momentOf_sooner (first second : Option (Nat × α)) :
    momentOf (sooner first second) = min (momentOf first) (momentOf second) := by
  unfold sooner
  split
  · next h => exact (min_eq_left h).symm
  · next h => exact (min_eq_right (le_of_not_ge h)).symm

@[simp] theorem momentOf_some (ending : Nat × α) : momentOf (some ending) = ending.1 := rfl

theorem momentOf_map (f : α → β) (ending : Option (Nat × α)) :
    momentOf (ending.map (Prod.map id f)) = momentOf ending := by
  cases ending <;> rfl

@[simp] theorem sooner_none (second : Option (Nat × α)) : sooner none second = second := by
  unfold sooner
  split
  · next h =>
    cases second with
    | none => rfl
    | some ending => exact absurd (top_le_iff.1 h) (ENat.natCast_ne_top ending.1)
  · rfl

theorem poll_either (first second : Timed α) (earlier : List Nat) (now : Nat) :
    (first.either second).poll earlier now =
      (first.poll earlier now).or (second.poll earlier now) := rfl

theorem ends_never : (never : Timed α).Ends none where
  pending _ _ _ _ := rfl
  ready _ _ _ h := nomatch h
  polled _ _ h := nomatch h

theorem ends_finishing (moment : Nat) (result : α) :
    (finishing moment result).Ends (some (moment, result)) where
  pending _ _ _ hnow := if_neg (Nat.not_le.2 (Nat.cast_lt.1 hnow))
  ready _ _ _ h _ _ := by
    cases h
    exact if_pos (Nat.le_refl moment)
  polled _ _ h := by
    cases h
    exact List.mem_cons_of_mem _ (List.mem_singleton_self moment)

theorem ends_due : (ending : Option (Nat × α)) → (due ending).Ends ending
  | none => ends_never
  | some (moment, result) => ends_finishing moment result

namespace Ends

variable {work : Timed α} {ending : Option (Nat × α)}

theorem map (h : work.Ends ending) (f : α → β) :
    (work.map f).Ends (ending.map (Prod.map id f)) where
  pending earlier now hpolls hnow := by
    rw [momentOf_map] at hnow
    exact congrArg (Option.map f) (h.pending earlier now hpolls hnow)
  ready earlier moment result hending hpolls hpast := by
    obtain ⟨⟨moment, first⟩, hfirst, heq⟩ := Option.map_eq_some_iff.1 hending
    cases heq
    exact congrArg (Option.map f) (h.ready earlier moment first hfirst hpolls hpast)
  polled moment result hending := by
    obtain ⟨⟨moment, first⟩, hfirst, heq⟩ := Option.map_eq_some_iff.1 hending
    cases heq
    exact h.polled moment first hfirst

theorem either {other : Timed α} {otherEnding : Option (Nat × α)} (h : work.Ends ending)
    (hother : other.Ends otherEnding) : (work.either other).Ends (sooner ending otherEnding) where
  pending earlier now hpolls hnow := by
    rw [momentOf_sooner, lt_min_iff] at hnow
    rw [poll_either, h.pending earlier now hpolls hnow.1,
      hother.pending earlier now hpolls hnow.2, Option.or_none]
  ready earlier moment result hending hpolls hpast := by
    unfold sooner at hending
    split at hending
    · rw [poll_either, h.ready earlier moment result hending hpolls hpast, Option.some_or]
    · next hle =>
      -- The second one comes first, so that a poll of the first one gives nothing yet.
      rw [hending, not_le] at hle
      rw [poll_either, h.pending earlier moment hpolls hle, Option.none_or,
        hother.ready earlier moment result hending hpolls hpast]
  polled moment result hending := by
    unfold sooner at hending
    rw [Timed.either, List.mem_cons, List.mem_append]
    split at hending
    · exact (List.mem_cons.1 (h.polled moment result hending)).imp_right .inl
    · exact (List.mem_cons.1 (hother.polled moment result hending)).imp_right .inr

/-- Polls in order that are not yet over give the result, if they reach its moment. -/
theorem firstResult_eq (h : work.Ends ending) (polls : List Nat) {earlier : List Nat}
    (hpolls : (earlier ++ polls).Pairwise (· ≤ ·))
    (hpast : ∀ past ∈ earlier, past < momentOf ending)
    (hreach : ∀ moment result, ending = some (moment, result) → moment ∈ polls) :
    work.firstResult earlier polls = ending.map (·.2) := by
  induction polls generalizing earlier with
  | nil =>
    cases ending with
    | none => rfl
    | some last => exact absurd (hreach last.1 last.2 rfl) List.not_mem_nil
  | cons now later ih =>
    rw [List.append_cons] at hpolls
    have hupTo : (earlier ++ [now]).Pairwise (· ≤ ·) := (List.pairwise_append.1 hpolls).1
    rw [firstResult]
    by_cases hnow : now < momentOf ending
    · rw [h.pending earlier now hupTo hnow, Option.none_or]
      refine ih hpolls (fun past hmem => ?_) fun moment result hending => ?_
      · rcases List.mem_append.1 hmem with hmem | hmem
        · exact hpast past hmem
        · rwa [List.mem_singleton.1 hmem]
      · refine (List.mem_cons.1 (hreach moment result hending)).resolve_left ?_
        rintro rfl
        rw [hending] at hnow
        exact lt_irrefl _ hnow
    · cases ending with
      | none => exact absurd (ENat.natCast_lt_top now) hnow
      | some last =>
        obtain ⟨moment, result⟩ := last
        have hle : moment ≤ now := Nat.cast_le.1 (not_lt.1 hnow)
        have heq : moment = now := by
          rcases List.mem_cons.1 (hreach moment result rfl) with heq | hmem
          · exact heq
          · refine Nat.le_antisymm hle ?_
            exact (List.pairwise_append.1 hpolls).2.2 now
              (List.mem_append_right _ (List.mem_singleton_self now)) moment hmem
        subst heq
        have hearlier (past) (hmem : past ∈ earlier) : past < moment := Nat.cast_lt.1 (hpast past hmem)
        rw [h.ready earlier moment result rfl hupTo hearlier]
        rfl

/-- What comes of a computation is the result with which it ends. -/
theorem outcome_eq (h : work.Ends ending) : work.outcome = ending.map (·.2) := by
  refine h.firstResult_eq _ ?_ (fun _ hmem => absurd hmem List.not_mem_nil)
    fun moment result hending => List.mem_mergeSort.2 (h.polled moment result hending)
  exact List.pairwise_mergeSort' (· ≤ ·) _

end Ends

end Timed

/-! ## The wait for a flag -/

namespace ShutdownFlag

open Timed

/-- Values are sent one after the other, after the start. -/
structure Orderly (flag : ShutdownFlag) : Prop where
  ascending : flag.signals.Pairwise (·.1 < ·.1)
  later : ∀ signal ∈ flag.signals, 0 < signal.1

/-- The moment in which the flag is raised for the first time. -/
def raisedAt (flag : ShutdownFlag) : ℕ∞ :=
  if flag.initial then 0 else (flag.signals.find? (·.2)).elim ⊤ (·.1)

/-- How the wait for the flag ends. -/
def ending (flag : ShutdownFlag) : Option (Nat × Unit) :=
  if flag.initial then some (0, ())
  else (flag.signals.find? (·.2)).map fun signal => (signal.1 + 1, ())

variable {flag : ShutdownFlag}

/-- Where a watch stands after a look at a flag that is not raised. -/
def resting (flag : ShutdownFlag) (now : Nat) : Watcher :=
  .await (flag.channelAt now) (flag.channelAt now).version

theorem sentBefore_sublist {first second : Nat} (h : first ≤ second) :
    (flag.sentBefore first).Sublist (flag.sentBefore second) := by
  refine (List.monotone_filter_right _ fun signal hsignal => ?_).map _
  exact decide_eq_true (Nat.lt_of_lt_of_le (of_decide_eq_true hsignal) h)

/-- Where no value was sent since, the flag is as it was. -/
theorem value_eq_of_version_eq {seen now : Nat} (h : seen ≤ now)
    (hversion : (flag.channelAt now).version = (flag.channelAt seen).version) :
    (flag.channelAt now).value = (flag.channelAt seen).value := by
  have hsent := (sentBefore_sublist h).eq_of_length hversion.symm
  simp only [channelAt, hsent]

/-- Where the sender is gone, nothing is sent any more. -/
theorem of_closed {seen now : Nat} (h : seen ≤ now)
    (hclosed : (flag.channelAt seen).closed = true) :
    (flag.channelAt now).closed = true ∧
      (flag.channelAt now).version = (flag.channelAt seen).version := by
  simp only [channelAt, Bool.and_eq_true, beq_iff_eq] at hclosed ⊢
  obtain ⟨hgone, hall⟩ := hclosed
  have hmost : (flag.sentBefore now).length ≤ flag.signals.length := by
    rw [sentBefore, List.length_map]
    exact List.length_filter_le _ _
  have hleast : (flag.sentBefore seen).length ≤ (flag.sentBefore now).length :=
    (sentBefore_sublist h).length_le
  refine ⟨⟨?_, by omega⟩, by omega⟩
  cases hdropped : flag.dropped with
  | none => simp [hdropped] at hgone
  | some moment =>
    simp only [hdropped, Option.any_some, decide_eq_true_eq] at hgone ⊢
    exact Nat.le_trans hgone h

/-- Whoever has seen that the flag is not raised comes, when polled again, to what a look
    at the flag comes to. -/
theorem poll_resting {seen now : Nat} (h : seen ≤ now)
    (hlow : (flag.channelAt seen).value = false) :
    (flag.resting seen).poll (flag.channelAt now) = Watcher.look (flag.channelAt now) := by
  have hlook (hversion : (flag.channelAt now).version = (flag.channelAt seen).version) :
      Watcher.look (flag.channelAt now) =
        some (.await (flag.channelAt now) (flag.channelAt seen).version) := by
    rw [← hversion]
    exact if_neg (by rw [value_eq_of_version_eq h hversion, hlow]; exact Bool.false_ne_true)
  by_cases hclosed : (flag.channelAt seen).closed = true
  · obtain ⟨hstays, hversion⟩ := of_closed h hclosed
    rw [hlook hversion, resting, Watcher.await, if_pos hclosed, Watcher.await, if_pos hstays]
    rfl
  · rw [resting, Watcher.await, if_neg hclosed, Watcher.poll]
    split
    · rfl
    · next hversion => exact (hlook (not_not.1 hversion)).symm

/-- A look at the flag, and the polls after it. -/
theorem look_bind_foldlM {now : Nat} {later : List Nat} (hpolls : (now :: later).Pairwise (· ≤ ·)) :
    (Watcher.look (flag.channelAt now) >>=
        later.foldlM fun watcher now => watcher.poll (flag.channelAt now)) = none ↔
      ∃ moment ∈ now :: later, (flag.channelAt moment).value = true := by
  induction later generalizing now with
  | nil => cases hvalue : (flag.channelAt now).value <;> simp [Watcher.look, hvalue]
  | cons next later ih =>
    rw [List.exists_mem_cons_iff]
    cases hvalue : (flag.channelAt now).value with
    | true => simp [Watcher.look, hvalue]
    | false =>
      -- The flag is not raised yet, and the next poll is a look at it again.
      have hlook : Watcher.look (flag.channelAt now) = some (flag.resting now) :=
        if_neg (by rw [hvalue]; exact Bool.false_ne_true)
      rw [List.pairwise_cons] at hpolls
      rw [hlook, Option.bind_eq_bind, Option.bind_some, List.foldlM_cons,
        poll_resting (hpolls.1 next List.mem_cons_self) hvalue, ih hpolls.2]
      simp only [Bool.false_eq_true, false_or]

/-- A watch is over if the flag was raised in one of the moments in which it was polled. -/
theorem watch_eq_none_iff {polls : List Nat} (hpolls : polls.Pairwise (· ≤ ·)) :
    flag.watch polls = none ↔ ∃ now ∈ polls, (flag.channelAt now).value = true := by
  cases polls with
  | nil => simp [watch]
  | cons now later => exact look_bind_foldlM hpolls

/-! ## When a flag is raised -/

theorem sentBefore_zero : flag.sentBefore 0 = [] := by
  simp [sentBefore]

/-- The first signal that raises the flag comes before the others that do. -/
theorem Orderly.first_le (h : flag.Orderly) {first signal : Nat × Bool}
    (hfirst : flag.signals.find? (·.2) = some first) (hsignal : signal ∈ flag.signals)
    (hraises : signal.2 = true) : first.1 ≤ signal.1 := by
  obtain ⟨_, before, after, hsignals, hbefore⟩ := List.find?_eq_some_iff_append.1 hfirst
  have hascending := h.ascending
  rw [hsignals, List.pairwise_append, List.pairwise_cons] at hascending
  rw [hsignals, List.mem_append, List.mem_cons] at hsignal
  rcases hsignal with hmem | rfl | hmem
  · exact absurd hraises (by simpa using hbefore signal hmem)
  · exact Nat.le_refl _
  · exact Nat.le_of_lt (hascending.2.1.1 signal hmem)

theorem Orderly.raisedAt_le_iff (h : flag.Orderly) {moment : Nat} :
    flag.raisedAt ≤ moment ↔
      flag.initial = true ∨ ∃ early ≤ moment, (early, true) ∈ flag.signals := by
  unfold raisedAt
  cases flag.initial with
  | true => simp
  | false =>
    simp only [Bool.false_eq_true, if_false, false_or]
    cases hfirst : flag.signals.find? (·.2) with
    | none =>
      have hnone := List.find?_eq_none.1 hfirst
      refine iff_of_false (not_le.2 (ENat.natCast_lt_top moment)) ?_
      rintro ⟨early, _, hmem⟩
      exact hnone _ hmem rfl
    | some first =>
      obtain ⟨moment', value⟩ := first
      have hvalue : value = true := List.find?_some hfirst
      subst hvalue
      refine Nat.cast_le.trans ⟨fun hle => ⟨moment', hle, List.mem_of_find?_eq_some hfirst⟩, ?_⟩
      rintro ⟨early, hearly, hmem⟩
      exact Nat.le_trans (h.first_le hfirst hmem rfl) hearly

theorem raisedAt_eq_top (h : flag.ending = none) : flag.raisedAt = ⊤ := by
  unfold ending at h
  unfold raisedAt
  split at h
  · cases h
  · next hinitial => rw [if_neg hinitial, Option.map_eq_none_iff.1 h, Option.elim_none]

/-- The wait for a flag ends right after the flag is raised. -/
theorem lt_ending_iff {moment : Nat} (hapart : ∀ signal ∈ flag.signals, signal.1 ≠ moment) :
    moment < momentOf flag.ending ↔ moment < flag.raisedAt := by
  unfold ending raisedAt
  cases flag.initial with
  | true => exact Iff.rfl
  | false =>
    cases hfirst : flag.signals.find? (·.2) with
    | none => exact Iff.rfl
    | some first =>
      have hne : first.1 ≠ moment := hapart first (List.mem_of_find?_eq_some hfirst)
      simp only [Bool.false_eq_true, if_false, Option.map_some, momentOf, Option.elim_some,
        Nat.cast_lt]
      omega

theorem Orderly.ending_le_iff (h : flag.Orderly) (hending : flag.ending ≠ none) (moment : ℕ∞) :
    momentOf flag.ending ≤ moment ↔ flag.raisedAt < moment ∨ flag.raisedAt = 0 := by
  revert hending
  unfold ending raisedAt
  cases flag.initial with
  | true => simp [momentOf]
  | false =>
    cases hfirst : flag.signals.find? (·.2) with
    | none => simp
    | some first =>
      have hlater : first.1 ≠ 0 :=
        Nat.pos_iff_ne_zero.1 (h.later first (List.mem_of_find?_eq_some hfirst))
      intro _
      simp only [Bool.false_eq_true, if_false, Option.map_some, momentOf, Option.elim_some,
        Nat.cast_eq_zero, hlater, or_false, Nat.cast_add, Nat.cast_one]
      exact ENat.add_one_le_iff (ENat.natCast_ne_top first.1)

/-- A flag is found raised only after it was raised. -/
theorem Orderly.ending_le (h : flag.Orderly) {now : Nat}
    (hvalue : (flag.channelAt now).value = true) : momentOf flag.ending ≤ now := by
  have hmem : true ∈ flag.initial :: flag.sentBefore now := hvalue ▸ List.getLastD_mem_cons
  unfold ending
  cases hinitial : flag.initial with
  | true => exact Nat.cast_le.2 (Nat.zero_le now)
  | false =>
    rw [hinitial, List.mem_cons, or_iff_right (by decide)] at hmem
    obtain ⟨signal, hsignal, hraises⟩ := List.mem_map.1 hmem
    obtain ⟨hsignal, hpast⟩ := List.mem_filter.1 hsignal
    cases hfirst : flag.signals.find? (·.2) with
    | none => exact absurd hraises (List.find?_eq_none.1 hfirst signal hsignal)
    | some first =>
      have hle := h.first_le hfirst hsignal hraises
      exact Nat.cast_le.2 (Nat.lt_of_le_of_lt hle (of_decide_eq_true hpast))

/-- Right after the flag is raised for the first time, it is found raised. -/
theorem Orderly.value_of_ending (h : flag.Orderly) {moment : Nat}
    (hending : flag.ending = some (moment, ())) : (flag.channelAt moment).value = true := by
  unfold ending at hending
  split at hending
  · next hinitial =>
    cases hending
    rw [channelAt, sentBefore_zero]
    exact hinitial
  · obtain ⟨⟨time, value⟩, hfirst, heq⟩ := Option.map_eq_some_iff.1 hending
    cases heq
    obtain ⟨hvalue, before, after, hsignals, -⟩ := List.find?_eq_some_iff_append.1 hfirst
    have hascending := h.ascending
    rw [hsignals, List.pairwise_append, List.pairwise_cons] at hascending
    have hbefore : ∀ signal ∈ before, signal.1 < time + 1 := fun signal hmem =>
      Nat.lt_succ_of_lt (hascending.2.2 signal hmem _ List.mem_cons_self)
    have hafter : ∀ signal ∈ after, ¬signal.1 < time + 1 := fun signal hmem =>
      Nat.not_lt.2 (hascending.2.1.1 signal hmem)
    have hsent : flag.sentBefore (time + 1) = before.map (·.2) ++ [value] := by
      rw [sentBefore, hsignals, List.filter_append,
        List.filter_eq_self.2 fun signal hmem => decide_eq_true (hbefore signal hmem),
        List.filter_cons_of_pos (by simp),
        List.filter_eq_nil_iff.2 fun signal hmem => by simpa using hafter signal hmem,
        List.map_append, List.map_singleton]
    rw [channelAt, hsent, List.getLastD_concat]
    exact hvalue

theorem Orderly.raised_ends (h : flag.Orderly) : flag.raised.Ends flag.ending where
  pending earlier now hpolls hnow := by
    refine if_neg fun hover => ?_
    obtain ⟨moment, hmem, hvalue⟩ :=
      (watch_eq_none_iff hpolls).1 (Option.isNone_iff_eq_none.1 hover)
    have hle : moment ≤ now := by
      rcases List.mem_append.1 hmem with hmem | hmem
      · exact (List.pairwise_append.1 hpolls).2.2 moment hmem now (List.mem_singleton_self now)
      · exact Nat.le_of_eq (List.mem_singleton.1 hmem)
    exact absurd (lt_of_lt_of_le hnow (h.ending_le hvalue)) (not_lt.2 (Nat.cast_le.2 hle))
  ready earlier moment result hending hpolls _ := by
    refine if_pos (Option.isNone_iff_eq_none.2 ((watch_eq_none_iff hpolls).2 ⟨moment, ?_, ?_⟩))
    · exact List.mem_append_right _ (List.mem_singleton_self moment)
    · exact h.value_of_ending hending
  polled moment result hending := by
    unfold ending at hending
    split at hending
    · cases hending
      exact List.mem_cons_self
    · obtain ⟨signal, hfirst, heq⟩ := Option.map_eq_some_iff.1 hending
      cases heq
      refine List.mem_cons_of_mem _ (List.mem_append_left _ ?_)
      exact List.mem_map.2 ⟨signal, List.mem_of_find?_eq_some hfirst, rfl⟩

/-! ## Flag, work and deadline -/

/-- Up to a moment two flags are raised by the same signals. -/
structure AgreesUntil (other flag : ShutdownFlag) (moment : ℕ∞) : Prop where
  initial : other.initial = flag.initial
  raises : ∀ early : Nat, early ≤ moment →
    ((early, true) ∈ other.signals ↔ (early, true) ∈ flag.signals)

theorem Orderly.raisedAt_eq_or {other : ShutdownFlag} (h : flag.Orderly) (hother : other.Orderly)
    {limit : ℕ∞} (hagrees : other.AgreesUntil flag (min flag.raisedAt limit)) :
    other.raisedAt = flag.raisedAt ∨ limit < flag.raisedAt ∧ limit < other.raisedAt := by
  have hiff (moment : Nat) (hmoment : moment ≤ min flag.raisedAt limit) :
      other.raisedAt ≤ moment ↔ flag.raisedAt ≤ moment := by
    rw [h.raisedAt_le_iff, hother.raisedAt_le_iff, hagrees.initial]
    refine or_congr_right (exists_congr fun early => and_congr_right fun hearly => ?_)
    exact hagrees.raises early ((Nat.cast_le.2 hearly).trans hmoment)
  rcases le_or_gt flag.raisedAt limit with hle | hlt
  · rw [min_eq_left hle] at hiff
    refine .inl (le_antisymm ?_ (le_of_not_gt fun hlt => ?_))
    · by_cases htop : flag.raisedAt = ⊤
      · exact htop ▸ le_top
      · obtain ⟨moment, hmoment⟩ := ENat.ne_top_iff_exists.1 htop
        exact hmoment ▸ (hiff moment hmoment.le).2 hmoment.ge
    · obtain ⟨moment, hmoment⟩ := ENat.ne_top_iff_exists.1 (ne_top_of_lt hlt)
      exact absurd ((hiff moment (hmoment ▸ hlt.le)).1 hmoment.ge) (not_le.2 (hmoment ▸ hlt))
  · rw [min_eq_right hlt.le] at hiff
    obtain ⟨moment, rfl⟩ := ENat.ne_top_iff_exists.1 (ne_top_of_lt hlt)
    exact .inr ⟨hlt, not_le.1 fun hle => not_le.2 hlt ((hiff moment le_rfl).1 hle)⟩

variable {work : Option (Nat × Except Error α)} {operation bounded : String}

/-- What the flag makes of the work. -/
theorem Orderly.cancellable_ends (h : flag.Orderly) :
    (cancellable operation flag (.due work)).Ends
      (sooner (flag.ending.map (Prod.map id fun _ => .error (.catalog (.cancelled operation))))
        work) :=
  (h.raised_ends.map _).either (ends_due work)

/-- The flag decides if it is raised before the work is done, or at once. -/
theorem Orderly.outcome_cancellable (h : flag.Orderly) :
    (cancellable operation flag (.due work)).outcome =
      if flag.raisedAt < momentOf work ∨ flag.raisedAt = 0 then
        some (.error (.catalog (.cancelled operation)))
      else work.map (·.2) := by
  rw [h.cancellable_ends.outcome_eq]
  cases hending : flag.ending with
  | none =>
    rw [Option.map_none, sooner_none, raisedAt_eq_top hending]
    simp
  | some ending =>
    rw [sooner, momentOf_map, ← hending]
    simp only [h.ending_le_iff (hending ▸ Option.some_ne_none ending)]
    rw [hending, apply_ite (Option.map _)]
    rfl

/-- The deadline decides if it comes before the flag is raised and before the work is done. -/
theorem Orderly.outcome_withDeadline (h : flag.Orderly) {deadline : Nat}
    (hapart : ∀ signal ∈ flag.signals, signal.1 ≠ deadline) :
    (withDeadline bounded (.ofMilliseconds deadline)
        (cancellable operation flag (.due work))).outcome =
      if deadline < flag.raisedAt ∧ deadline < momentOf work then
        some (.error (.catalog (.deadlineExceeded bounded (.ofMilliseconds deadline))))
      else (cancellable operation flag (.due work)).outcome := by
  have hends : (cancellable operation flag (.due work)).Ends _ := h.cancellable_ends
  have hlimited := hends.either (ends_finishing (Duration.ofMilliseconds deadline).ticks
    (.error (.catalog (.deadlineExceeded bounded (.ofMilliseconds deadline)))))
  have hfirst : deadline < min (momentOf flag.ending) (momentOf work) ↔
      deadline < flag.raisedAt ∧ deadline < momentOf work :=
    lt_min_iff.trans (and_congr_left' (lt_ending_iff hapart))
  rw [withDeadline, hlimited.outcome_eq, hends.outcome_eq, sooner, momentOf_sooner, momentOf_map,
    momentOf_some, Duration.ticks_ofMilliseconds]
  by_cases hdeadline : deadline < min (momentOf flag.ending) (momentOf work)
  · rw [if_neg (not_le.2 hdeadline), if_pos (hfirst.1 hdeadline)]
    rfl
  · rw [if_pos (not_lt.1 hdeadline), if_neg (mt hfirst.2 hdeadline)]

/-- Work that is done before the flag is raised comes to its own result. -/
theorem Orderly.outcome_cancellable_of_lt (h : flag.Orderly)
    (hdone : momentOf work < flag.raisedAt) :
    (cancellable operation flag (.due work)).outcome = work.map (·.2) := by
  rw [h.outcome_cancellable]
  exact if_neg (not_or.2 ⟨hdone.not_gt, (bot_lt_of_lt hdone).ne'⟩)

/-- Before the flag is raised, the deadline comes or the work is done. -/
theorem Orderly.outcome_withDeadline_of_lt (h : flag.Orderly) {deadline : Nat}
    (hapart : ∀ signal ∈ flag.signals, signal.1 ≠ deadline)
    (hfirst : min (momentOf work) deadline < flag.raisedAt) :
    (withDeadline bounded (.ofMilliseconds deadline)
        (cancellable operation flag (.due work))).outcome =
      if deadline < momentOf work then
        some (.error (.catalog (.deadlineExceeded bounded (.ofMilliseconds deadline))))
      else work.map (·.2) := by
  rw [h.outcome_withDeadline hapart]
  by_cases hdeadline : deadline < momentOf work
  · rw [min_eq_right hdeadline.le] at hfirst
    rw [if_pos ⟨hfirst, hdeadline⟩, if_pos hdeadline]
  · rw [min_eq_left (not_lt.1 hdeadline)] at hfirst
    rw [if_neg fun hboth => hdeadline hboth.2, if_neg hdeadline, h.outcome_cancellable_of_lt hfirst]

/-- Work that a flag and a deadline may interrupt comes to what the earliest of the three
    makes of it: the flag goes before the work only if it is raised before the work is done,
    or at once, and the deadline before both only if it comes before both. A flag that is
    lowered, what is sent after the outcome, and whether the sender is gone play no part:
    flags that are raised by the same signals up to the outcome lead to the same one. -/
theorem earliest_wins (h : flag.Orderly) (work : Option (Nat × Except Error α))
    (operation bounded : String) {deadline : Nat}
    (hapart : ∀ signal ∈ flag.signals, signal.1 ≠ deadline) :
    let guarded (flag : ShutdownFlag) := cancellable operation flag (.due work)
    let limited (flag : ShutdownFlag) :=
      withDeadline bounded (.ofMilliseconds deadline) (guarded flag)
    let raised := flag.raisedAt
    let done := momentOf work
    (guarded flag).outcome =
        (if raised < done ∨ raised = 0 then some (.error (.catalog (.cancelled operation)))
        else work.map (·.2)) ∧
      (limited flag).outcome =
        (if deadline < raised ∧ deadline < done then
          some (.error (.catalog (.deadlineExceeded bounded (.ofMilliseconds deadline))))
        else (guarded flag).outcome) ∧
      ∀ other : ShutdownFlag, other.Orderly →
        (other.AgreesUntil flag (min raised done) →
          (guarded other).outcome = (guarded flag).outcome) ∧
        ((∀ signal ∈ other.signals, signal.1 ≠ deadline) →
          other.AgreesUntil flag (min raised (min done deadline)) →
          (limited other).outcome = (limited flag).outcome) := by
  intro guarded limited raised done
  refine ⟨h.outcome_cancellable, h.outcome_withDeadline hapart, fun other hother => ⟨?_, ?_⟩⟩
  · intro hagrees
    rcases h.raisedAt_eq_or hother hagrees with heq | ⟨hdone, hdone'⟩
    · exact hother.outcome_cancellable.trans (heq ▸ h.outcome_cancellable.symm)
    · exact (hother.outcome_cancellable_of_lt hdone').trans
        (h.outcome_cancellable_of_lt hdone).symm
  · intro hapart' hagrees
    rcases h.raisedAt_eq_or hother hagrees with heq | ⟨hfirst, hfirst'⟩
    · have hguarded : (guarded other).outcome = (guarded flag).outcome :=
        hother.outcome_cancellable.trans (heq ▸ h.outcome_cancellable.symm)
      refine (hother.outcome_withDeadline hapart').trans ?_
      rw [heq, show (cancellable _ _ _).outcome = _ from hguarded]
      exact (h.outcome_withDeadline hapart).symm
    · exact (hother.outcome_withDeadline_of_lt hapart' hfirst').trans
        (h.outcome_withDeadline_of_lt hapart hfirst).symm

/-- A flag that is up for one moment only, and whose sender is gone then, still comes before
    work that takes longer, and after a deadline that is shorter. -/
theorem earliest_wins_glimpsed :
    let flag : ShutdownFlag :=
      { signals := [(3, false), (5, true), (6, false)], dropped := some 6 }
    let steady : ShutdownFlag := { signals := [(5, true)] }
    let work : Option (Nat × Except Error Unit) := some (8, .ok ())
    flag.Orderly ∧ steady.Orderly ∧ (∀ signal ∈ flag.signals, signal.1 ≠ 4) ∧
      (∀ signal ∈ steady.signals, signal.1 ≠ 4) ∧ steady.AgreesUntil flag 5 ∧
      (cancellable "ping" flag (.due work)).outcome =
        some (.error (.catalog (.cancelled "ping"))) ∧
      (cancellable "ping" steady (.due work)).outcome =
        (cancellable "ping" flag (.due work)).outcome ∧
      (withDeadline "slow" (.ofMilliseconds 4) (cancellable "ping" flag (.due work))).outcome =
        some (.error (.catalog (.deadlineExceeded "slow" (.ofMilliseconds 4)))) := by
  intro flag steady work
  have horderly : flag.Orderly := ⟨by simp [flag], by simp [flag]⟩
  have hsteady : steady.Orderly := ⟨by simp [steady], by simp [steady]⟩
  have hapart : ∀ signal ∈ flag.signals, signal.1 ≠ 4 := by simp [flag]
  have hapart' : ∀ signal ∈ steady.signals, signal.1 ≠ 4 := by simp [steady]
  have hagrees : steady.AgreesUntil flag 5 := ⟨rfl, by simp [steady, flag]⟩
  have hraised : flag.raisedAt = (5 : Nat) := rfl
  have hdone : momentOf work = (8 : Nat) := rfl
  obtain ⟨hguarded, hlimited, hother⟩ := earliest_wins horderly work "ping" "slow" hapart
  refine ⟨horderly, hsteady, hapart, hapart', hagrees, ?_, ?_, ?_⟩
  · rw [hraised, hdone] at hguarded
    exact hguarded.trans (if_pos (.inl (Nat.cast_lt.2 (by decide))))
  · refine (hother steady hsteady).1 ?_
    rw [hraised, hdone, min_eq_left (Nat.cast_le.2 (by decide))]
    exact hagrees
  · rw [hraised, hdone] at hlimited
    exact hlimited.trans (if_pos ⟨Nat.cast_lt.2 (by decide), Nat.cast_lt.2 (by decide)⟩)

end ShutdownFlag

end ShadowCatalog
