import Mathlib.Tactic.Common
import ShadowCatalog.Search.Expression

/-!
# The grammar of search expressions

A search expression is a row of *pieces*, blanks and lexemes, which put together are
the expression (`Splits`). Where no blank stands a lexeme starts. It has to *fit*
there (`Lexeme.Fits`): a joiner must end where a word may end, a span at the first
quote of its kind, and a run before a blank. Of the lexemes that fit, the one whose
rule comes first is read (`Lexeme.Starts`).

There is exactly one such row for every text, and the tokens of the expression are
those of its lexemes, in order (`searchTokens_splits`). A lexeme's terms are unwanted
if the last one before it that is not a joiner is a negation (`negates`).

Which lexeme starts a text is decided by the text alone (`Lexeme.Starts.unique`): each
rule reads what fits and nothing else, and no text begins with both joiners. The row
is then unique by induction on it, and it is found by the recursion of `lexemes`.
-/

namespace ShadowCatalog

open Text

/-! ## Words -/

namespace Text

theorem leadingWord_cons (c : Char) (cs : List Char) :
    leadingWord (c :: cs) =
      if isBlank c then ([], words cs) else (c :: (leadingWord cs).1, (leadingWord cs).2) := rfl

theorem words_def (cs : List Char) :
    words cs = if (leadingWord cs).1.isEmpty then (leadingWord cs).2
      else (leadingWord cs).1 :: (leadingWord cs).2 := rfl

theorem splitOnP_eq_leadingWord (cs : List Char) :
    ∃ others, cs.splitOnP isBlank = (leadingWord cs).1 :: others ∧
      others.filter (!·.isEmpty) = (leadingWord cs).2 := by
  induction cs with
  | nil => exact ⟨[], List.splitOnP_nil, rfl⟩
  | cons c cs ih =>
    obtain ⟨others, hsplit, hlater⟩ := ih
    rw [List.splitOnP_cons_eq_if_modifyHead, leadingWord_cons, hsplit]
    by_cases hc : isBlank c = true
    · refine ⟨_, by rw [if_pos hc, if_pos hc], ?_⟩
      rw [if_pos hc, List.filter_cons, hlater, words_def]
      cases (leadingWord cs).1 <;> rfl
    · exact ⟨others, by rw [if_neg hc, if_neg hc]; rfl, by rw [if_neg hc]; exact hlater⟩

/-- The words of a text are what its blanks separate, as far as it is not empty. -/
theorem words_eq (cs : List Char) : words cs = (cs.splitOnP isBlank).filter (!·.isEmpty) := by
  obtain ⟨others, hsplit, hlater⟩ := splitOnP_eq_leadingWord cs
  rw [words_def, hsplit, List.filter_cons, hlater]
  cases (leadingWord cs).1 <;> rfl

/-- There are no blanks in a word. -/
theorem isBlank_of_mem_words {cs word : List Char} (hword : word ∈ words cs) {c : Char}
    (hc : c ∈ word) : isBlank c = false := by
  have hall : (∀ c ∈ (leadingWord cs).1, isBlank c = false) ∧
      (∀ word ∈ (leadingWord cs).2, ∀ c ∈ word, isBlank c = false) ∧
      ∀ word ∈ words cs, ∀ c ∈ word, isBlank c = false := by
    clear hword hc
    induction cs with
    | nil => simp [leadingWord, words]
    | cons d cs ih =>
      obtain ⟨hfirst, hlater, hwords⟩ := ih
      rw [words_def, leadingWord_cons]
      by_cases hd : isBlank d = true
      · simpa [hd] using hwords
      · simpa [hd] using ⟨hfirst, hlater, hfirst, hlater⟩
  exact hall.2.2 word hword c hc

/-- A text is cut at the first place where it can be. -/
theorem splitAt?_eq_some_iff {c : Char} {cs before after : List Char} :
    splitAt? c cs = some (before, after) ↔ before ++ c :: after = cs ∧ c ∉ before := by
  refine ⟨fun hsplit => ⟨splitAt?_eq_some hsplit, ?_⟩, ?_⟩
  · induction cs generalizing before with
    | nil => cases hsplit
    | cons d cs ih =>
      rw [splitAt?] at hsplit
      split at hsplit
      · cases hsplit
        exact List.not_mem_nil
      · next hd =>
        obtain ⟨⟨left, right⟩, hsplit, heq⟩ := Option.map_eq_some_iff.1 hsplit
        cases heq
        exact List.not_mem_cons_of_ne_of_not_mem (Ne.symm hd) (ih hsplit)
  · rintro ⟨rfl, hfree⟩
    induction before with
    | nil => rw [List.nil_append, splitAt?, if_pos rfl]
    | cons d before ih =>
      rw [List.mem_cons, not_or] at hfree
      rw [List.cons_append, splitAt?, if_neg (Ne.symm hfree.1), ih hfree.2]
      rfl

/-- A blank is not a letter, so it has no case. -/
theorem toLower_of_isBlank {c : Char} (h : isBlank c = true) : c.toLower = c := by
  have hletter : ¬ (65 ≤ c.toNat ∧ c.toNat ≤ 90) := by
    simp only [isBlank, Bool.or_eq_true, Bool.and_eq_true, decide_eq_true_eq, beq_iff_eq] at h
    omega
  unfold Char.toLower
  split
  · next hupper => exact absurd (by simpa [UInt32.le_iff_toNat_le] using hupper) hletter
  · rfl

/-- If nothing is left of a text without its ends, it is blank. -/
theorem trim_eq_nil_iff {cs : List Char} : trim cs = [] ↔ ∀ c ∈ cs, isBlank c = true := by
  have hend (cs : List Char) : dropEndWhile isBlank cs = [] ↔ ∀ c ∈ cs, isBlank c = true := by
    induction cs with
    | nil => simp [dropEndWhile]
    | cons c cs ih =>
      rw [dropEndWhile]
      cases h : dropEndWhile isBlank cs with
      | nil => simpa using fun _ => ih.1 h
      | cons d ds => simp [← ih, h]
  rw [trim, hend]
  induction cs with
  | nil => simp
  | cons c cs ih => by_cases hc : isBlank c = true <;> simp_all

end Text

/-! ## Rules -/

namespace Lexeme

/-- The place of the rule for a lexeme among the rules. -/
def rank : Lexeme → Nat
  | .joiner .. => 0
  | .negation => 1
  | .span .. => 2
  | .run _ => 3

/-- What the rule for a lexeme asks of it, and of the text that follows. -/
inductive Fits (rest : List Char) : Lexeme → Prop
  /-- A joiner is a word in letters of either case, up to the end of a word. -/
  | joiner {j : Joiner} {letters : List Char} :
    sameLetters letters j.word.toList = true →
      (∀ c ∈ rest.head?, isBlank c = true ∨ c = '"' ∨ c = '\'') → Fits rest (.joiner j letters)
  /-- A negation may stand anywhere. -/
  | negation : Fits rest .negation
  /-- A span ends at the first quote of its kind. -/
  | span {quote : Char} {text : List Char} :
    quote = '"' ∨ quote = '\'' → quote ∉ text → Fits rest (.span quote text)
  /-- A run is not empty, and ends before a blank. -/
  | run {text : List Char} :
    text ≠ [] → (∀ c ∈ text, isBlank c = false) → (∀ c ∈ rest.head?, isBlank c = true) →
      Fits rest (.run text)

/-- At the start of a text a lexeme is read, and `rest` is left: it fits there, and no
    lexeme does for which there is an earlier rule. -/
structure Starts (lexeme : Lexeme) (text rest : List Char) : Prop where
  source : lexeme.source ++ rest = text
  fits : lexeme.Fits rest
  first : ∀ (other : Lexeme) (later : List Char), other.source ++ later = text →
    other.Fits later → lexeme.rank ≤ other.rank

variable {lexeme : Lexeme} {text rest : List Char}

theorem isQuote_iff {c : Char} : isQuote c = true ↔ c = '"' ∨ c = '\'' := by
  rw [isQuote, Bool.or_eq_true, beq_iff_eq, beq_iff_eq]

theorem endsWord_iff :
    endsWord rest = true ↔ ∀ c ∈ rest.head?, isBlank c = true ∨ c = '"' ∨ c = '\'' := by
  cases rest with
  | nil => simp [endsWord]
  | cons c rest => simp [endsWord, isQuote_iff]

theorem length_of_sameLetters {letters word : List Char} (h : sameLetters letters word = true) :
    letters.length = word.length := by
  simpa using congrArg List.length (eq_of_beq h)

/-! ### Each rule reads what fits, and nothing else -/

theorem joiner?_eq_some_iff {j : Joiner} :
    joiner? j text = some (lexeme, rest) ↔
      lexeme.source ++ rest = text ∧ lexeme.Fits rest ∧ ∃ letters, lexeme = .joiner j letters := by
  constructor
  · intro hread
    have hsource := source_joiner? hread
    simp only [joiner?] at hread
    split at hread
    · next hfits =>
      cases hread
      rw [Bool.and_eq_true, endsWord_iff] at hfits
      exact ⟨hsource, .joiner hfits.1 hfits.2, _, rfl⟩
    · cases hread
  · rintro ⟨rfl, hfits, letters, rfl⟩
    cases hfits with | joiner hletters hend =>
    have htake : (letters ++ rest).take j.word.toList.length = letters :=
      List.take_left' (length_of_sameLetters hletters)
    have hdrop : (letters ++ rest).drop j.word.toList.length = rest :=
      List.drop_left' (length_of_sameLetters hletters)
    simp only [joiner?, source, htake, hdrop, hletters, endsWord_iff.2 hend, Bool.and_self, if_true]

theorem negation?_eq_some_iff :
    negation? text = some (lexeme, rest) ↔ lexeme.source ++ rest = text ∧ lexeme = .negation := by
  constructor
  · intro hread
    refine ⟨source_negation? hread, ?_⟩
    unfold negation? at hread
    split at hread
    · cases hread
      rfl
    · cases hread
  · rintro ⟨rfl, rfl⟩
    rfl

theorem span?_eq_some_iff :
    span? text = some (lexeme, rest) ↔
      lexeme.source ++ rest = text ∧ lexeme.Fits rest ∧
        ∃ quote inner, lexeme = .span quote inner := by
  constructor
  · intro hread
    have hsource := source_span? hread
    cases text with
    | nil => cases hread
    | cons c cs =>
      rw [span?] at hread
      split at hread
      · next hquote =>
        obtain ⟨⟨inner, after⟩, hsplit, heq⟩ := Option.map_eq_some_iff.1 hread
        cases heq
        exact ⟨hsource, .span (isQuote_iff.1 hquote) (splitAt?_eq_some_iff.1 hsplit).2, c, inner,
          rfl⟩
      · cases hread
  · rintro ⟨rfl, hfits, quote, inner, rfl⟩
    cases hfits with | span hquote hfree =>
    simp only [source, List.cons_append, List.append_assoc, List.nil_append]
    rw [span?, if_pos (isQuote_iff.2 hquote), splitAt?_eq_some_iff.2 ⟨rfl, hfree⟩]
    rfl

theorem leadingRun_eq_of_fits {run : List Char} (h : (Lexeme.run run).Fits rest) :
    leadingRun (run ++ rest) = (.run run, rest) := by
  cases h with | run hne hrun hrest =>
  have hall : ∀ c ∈ run, (!isBlank c) = true := fun c hc => by rw [hrun c hc]; rfl
  have hstop : rest.takeWhile (!isBlank ·) = [] ∧ rest.dropWhile (!isBlank ·) = rest := by
    cases rest with
    | nil => exact ⟨rfl, rfl⟩
    | cons c rest => simp [hrest c rfl]
  rw [leadingRun, List.takeWhile_append_of_pos hall, List.dropWhile_append_of_pos hall, hstop.1,
    hstop.2, List.append_nil]

theorem fits_leadingRun {c : Char} (cs : List Char) (hc : isBlank c = false) :
    (leadingRun (c :: cs)).1.Fits (leadingRun (c :: cs)).2 := by
  refine .run (by simp [hc]) (fun d hd => ?_) (fun d hd => ?_)
  · simpa using List.all_eq_true.1 List.all_takeWhile d hd
  · have hstop := List.head?_dropWhile_not (!isBlank ·) (c :: cs)
    rw [leadingRun] at hd
    rw [Option.mem_def.1 hd] at hstop
    simpa using hstop

/-- No text begins with both joiners. -/
theorem joiner?_or_eq_none {read : Lexeme × List Char} (h : joiner? .and text = some read) :
    joiner? .or text = none := by
  by_contra hor
  obtain ⟨⟨other, later⟩, hor⟩ := Option.ne_none_iff_exists'.1 hor
  obtain ⟨lexeme, rest⟩ := read
  obtain ⟨rfl, hfits, letters, rfl⟩ := joiner?_eq_some_iff.1 h
  obtain ⟨hsource, hfits', letters', rfl⟩ := joiner?_eq_some_iff.1 hor
  cases hfits with | joiner hletters hend =>
  cases hfits' with | joiner hletters' hend' =>
  -- The first letter would be an A and an O.
  cases letters with
  | nil => cases hletters
  | cons c letters =>
    cases letters' with
    | nil => cases hletters'
    | cons d letters' =>
      have hfirst : c.toLower = 'a' := (List.cons.inj (eq_of_beq hletters)).1
      have hfirst' : d.toLower = 'o' := (List.cons.inj (eq_of_beq hletters')).1
      rw [(List.cons.inj hsource).1, hfirst] at hfirst'
      exact absurd hfirst' (by decide)

/-- What fits somewhere does not start with a blank. -/
theorem isBlank_head_of_fits (hsource : lexeme.source ++ rest = text) (hfits : lexeme.Fits rest) :
    ∃ c cs, text = c :: cs ∧ isBlank c = false := by
  subst hsource
  cases hfits with
  | @joiner j letters hletters hend =>
    cases letters with
    | nil => cases j <;> cases hletters
    | cons c letters =>
      refine ⟨c, _, rfl, Bool.eq_false_iff.2 fun hblank => ?_⟩
      have hfirst : c.toLower = 'a' ∨ c.toLower = 'o' := by
        cases j
        · exact .inl (List.cons.inj (eq_of_beq hletters)).1
        · exact .inr (List.cons.inj (eq_of_beq hletters)).1
      rw [toLower_of_isBlank hblank] at hfirst
      rcases hfirst with rfl | rfl <;> cases hblank
  | negation => exact ⟨'!', _, rfl, by decide⟩
  | @span quote inner hquote hfree =>
    refine ⟨quote, _, rfl, ?_⟩
    rcases hquote with rfl | rfl <;> decide
  | @run run hne hrun hrest =>
    cases run with
    | nil => exact absurd rfl hne
    | cons c run => exact ⟨c, _, rfl, hrun c List.mem_cons_self⟩

/-! ### The first rule that fits -/

theorem one_le_rank (hand : joiner? .and text = none) (hor : joiner? .or text = none)
    (hsource : lexeme.source ++ rest = text) (hfits : lexeme.Fits rest) : 1 ≤ lexeme.rank := by
  cases lexeme with
  | joiner j letters =>
    have hread := joiner?_eq_some_iff.2 ⟨hsource, hfits, letters, rfl⟩
    cases j
    · exact absurd (hand.symm.trans hread) (by simp)
    · exact absurd (hor.symm.trans hread) (by simp)
  | _ => simp [rank]

theorem two_le_rank (hnegation : negation? text = none) (hsource : lexeme.source ++ rest = text)
    (hrank : 1 ≤ lexeme.rank) : 2 ≤ lexeme.rank := by
  cases lexeme with
  | joiner j letters => cases hrank
  | negation =>
    exact absurd (hnegation.symm.trans (negation?_eq_some_iff.2 ⟨hsource, rfl⟩)) (by simp)
  | _ => simp [rank]

theorem three_le_rank (hspan : span? text = none) (hsource : lexeme.source ++ rest = text)
    (hfits : lexeme.Fits rest) (hrank : 2 ≤ lexeme.rank) : 3 ≤ lexeme.rank := by
  cases lexeme with
  | joiner j letters => cases hrank
  | negation => cases Nat.le_of_succ_le_succ hrank
  | span quote inner =>
    have hread := span?_eq_some_iff.2 ⟨hsource, hfits, quote, inner, rfl⟩
    exact absurd (hspan.symm.trans hread) (by simp)
  | run run => exact Nat.le_refl 3

/-- Where no blank stands, a lexeme starts. -/
theorem leading_starts {c : Char} (cs : List Char) (hc : isBlank c = false) :
    (leading (c :: cs)).1.Starts (c :: cs) (leading (c :: cs)).2 := by
  obtain ⟨lexeme, rest, hleading⟩ : ∃ lexeme rest, leading (c :: cs) = (lexeme, rest) :=
    ⟨_, _, rfl⟩
  have hsource : lexeme.source ++ rest = c :: cs := by
    simpa [hleading] using leading_source (c :: cs)
  rw [hleading]
  suffices hread : lexeme.Fits rest ∧ ∀ (other : Lexeme) (later : List Char),
      other.source ++ later = c :: cs → other.Fits later → lexeme.rank ≤ other.rank from
    ⟨hsource, hread.1, hread.2⟩
  unfold leading at hleading
  cases hand : joiner? .and (c :: cs) with
  | some read =>
    obtain rfl : read = (lexeme, rest) := by simpa [hand] using hleading
    obtain ⟨-, hfits, letters, rfl⟩ := joiner?_eq_some_iff.1 hand
    exact ⟨hfits, fun _ _ _ _ => Nat.zero_le _⟩
  | none =>
  cases hor : joiner? .or (c :: cs) with
  | some read =>
    obtain rfl : read = (lexeme, rest) := by simpa [hand, hor] using hleading
    obtain ⟨-, hfits, letters, rfl⟩ := joiner?_eq_some_iff.1 hor
    exact ⟨hfits, fun _ _ _ _ => Nat.zero_le _⟩
  | none =>
  cases hnegation : negation? (c :: cs) with
  | some read =>
    obtain rfl : read = (lexeme, rest) := by simpa [hand, hor, hnegation] using hleading
    obtain ⟨-, rfl⟩ := negation?_eq_some_iff.1 hnegation
    exact ⟨.negation, fun other later => one_le_rank hand hor⟩
  | none =>
  have htwo (other : Lexeme) (later : List Char) (hother : other.source ++ later = c :: cs)
      (hfits : other.Fits later) : 2 ≤ other.rank :=
    two_le_rank hnegation hother (one_le_rank hand hor hother hfits)
  cases hspan : span? (c :: cs) with
  | some read =>
    obtain rfl : read = (lexeme, rest) := by
      simpa [hand, hor, hnegation, hspan] using hleading
    obtain ⟨-, hfits, quote, inner, rfl⟩ := span?_eq_some_iff.1 hspan
    exact ⟨hfits, htwo⟩
  | none =>
    have hrun : leadingRun (c :: cs) = (lexeme, rest) := by
      simpa [hand, hor, hnegation, hspan] using hleading
    have hfits := fits_leadingRun cs hc
    rw [hrun] at hfits
    obtain rfl : lexeme = .run _ := (congrArg Prod.fst hrun).symm
    exact ⟨hfits, fun other later hother hlater =>
      three_le_rank hspan hother hlater (htwo other later hother hlater)⟩

theorem leadingRun_eq_of_starts {run : List Char} (h : (Lexeme.run run).Starts text rest) :
    leadingRun text = (.run run, rest) := by
  rw [← h.source]
  exact leadingRun_eq_of_fits h.fits

/-- No two lexemes start one text. -/
theorem Starts.unique {other : Lexeme} {later : List Char} (h : lexeme.Starts text rest)
    (h' : other.Starts text later) : lexeme = other ∧ rest = later := by
  have hrank : lexeme.rank = other.rank :=
    Nat.le_antisymm (h.first _ _ h'.source h'.fits) (h'.first _ _ h.source h.fits)
  cases lexeme with
  | joiner j letters =>
    cases other with
    | joiner j' letters' =>
      have hread := joiner?_eq_some_iff.2 ⟨h.source, h.fits, letters, rfl⟩
      have hread' := joiner?_eq_some_iff.2 ⟨h'.source, h'.fits, letters', rfl⟩
      cases j <;> cases j'
      · simpa using hread.symm.trans hread'
      · exact absurd (hread'.symm.trans (joiner?_or_eq_none hread)) (by simp)
      · exact absurd (hread.symm.trans (joiner?_or_eq_none hread')) (by simp)
      · simpa using hread.symm.trans hread'
    | _ => cases hrank
  | negation =>
    cases other with
    | negation => exact ⟨rfl, List.append_cancel_left (h.source.trans h'.source.symm)⟩
    | _ => cases hrank
  | span quote inner =>
    cases other with
    | span quote' inner' =>
      have hread := span?_eq_some_iff.2 ⟨h.source, h.fits, quote, inner, rfl⟩
      have hread' := span?_eq_some_iff.2 ⟨h'.source, h'.fits, quote', inner', rfl⟩
      simpa using hread.symm.trans hread'
    | _ => cases hrank
  | run run =>
    cases other with
    | run run' =>
      simpa using (leadingRun_eq_of_starts h).symm.trans (leadingRun_eq_of_starts h')
    | _ => cases hrank

end Lexeme

/-! ## Rows of pieces -/

/-- A piece of a search expression. -/
inductive Piece
  /-- A blank. -/
  | blank (c : Char)
  /-- A lexeme. -/
  | lexeme (lexeme : Lexeme)
  deriving DecidableEq, Repr

namespace Piece

/-- The text of a piece as written. -/
def source : Piece → List Char
  | .blank c => [c]
  | .lexeme read => read.source

/-- The lexeme that a piece is. -/
def lexeme? : Piece → Option Lexeme
  | .blank _ => none
  | .lexeme read => some read

end Piece

/-- A text is this row of pieces: a blank is a piece of its own, and where none stands
    a lexeme starts. -/
inductive Splits : List Char → List Piece → Prop
  | nil : Splits [] []
  | blank {c : Char} {cs : List Char} {pieces : List Piece} :
    isBlank c = true → Splits cs pieces → Splits (c :: cs) (.blank c :: pieces)
  | lexeme {lexeme : Lexeme} {text rest : List Char} {pieces : List Piece} :
    lexeme.Starts text rest → Splits rest pieces → Splits text (.lexeme lexeme :: pieces)

/-- The pieces put together are the text: nothing is left out, and nothing read twice. -/
theorem Splits.flatMap_source {text : List Char} {pieces : List Piece} (h : Splits text pieces) :
    pieces.flatMap Piece.source = text := by
  induction h with
  | nil => rfl
  | blank hc h ih => rw [List.flatMap_cons, ih, Piece.source, List.singleton_append]
  | lexeme hstarts h ih => rw [List.flatMap_cons, ih, Piece.source, hstarts.source]

theorem Lexeme.Starts.isBlank_head {lexeme : Lexeme} {c : Char} {cs rest : List Char}
    (h : lexeme.Starts (c :: cs) rest) : isBlank c = false := by
  obtain ⟨d, ds, heq, hd⟩ := isBlank_head_of_fits h.source h.fits
  rwa [(List.cons.inj heq).1]

/-- A text splits in one way only. -/
theorem Splits.unique {text : List Char} {pieces others : List Piece} (h : Splits text pieces)
    (h' : Splits text others) : pieces = others := by
  induction h generalizing others with
  | nil =>
    cases h' with
    | nil => rfl
    | @lexeme other _ rest _ hstarts h' =>
      obtain ⟨c, cs, heq, -⟩ := Lexeme.isBlank_head_of_fits hstarts.source hstarts.fits
      cases heq
  | blank hc h ih =>
    cases h' with
    | blank hc' h' => rw [ih h']
    | lexeme hstarts h' => exact absurd (hc.symm.trans hstarts.isBlank_head) (by decide)
  | @lexeme lexeme text rest pieces hstarts h ih =>
    cases h' with
    | nil =>
      obtain ⟨c, cs, heq, -⟩ := Lexeme.isBlank_head_of_fits hstarts.source hstarts.fits
      cases heq
    | blank hc h' => exact absurd (hc.symm.trans hstarts.isBlank_head) (by decide)
    | lexeme hstarts' h' =>
      obtain ⟨rfl, rfl⟩ := hstarts.unique hstarts'
      rw [ih h']

/-- Every text splits, and its lexemes are those of the pieces. -/
theorem exists_splits (text : List Char) :
    ∃ pieces, Splits text pieces ∧ pieces.filterMap Piece.lexeme? = lexemes text := by
  fun_induction lexemes text with
  | case1 => exact ⟨[], .nil, rfl⟩
  | case2 c cs hc ih =>
    obtain ⟨pieces, hsplits, hlexemes⟩ := ih
    exact ⟨.blank c :: pieces, .blank hc hsplits, by rwa [List.filterMap_cons_none rfl]⟩
  | case3 c cs hc next ih =>
    obtain ⟨pieces, hsplits, hlexemes⟩ := ih
    have hstarts : next.1.Starts (c :: cs) next.2 :=
      Lexeme.leading_starts cs (Bool.eq_false_iff.2 hc)
    exact ⟨.lexeme next.1 :: pieces, .lexeme hstarts hsplits, congrArg (next.1 :: ·) hlexemes⟩

/-! ## Tokens -/

namespace Lexeme

/-- A joiner. -/
def isJoiner : Lexeme → Bool
  | .joiner .. => true
  | _ => false

/-- After these lexemes a negation is pending: the last one that is not a joiner is a
    negation. -/
def negates (before : List Lexeme) : Bool :=
  (before.filter (!·.isJoiner)).getLast? = some .negation

/-- The terms that blanks separate in a text, or the empty term if there is none. -/
def termsIn (text : List Char) : List String :=
  let terms := (text.splitOnP isBlank).filter (!·.isEmpty)
  if terms = [] then [""] else terms.map String.ofList

/-- What a lexeme asks for, where a negation is pending or not. -/
def tokens (negated : Bool) : Lexeme → List SearchToken
  | .joiner j _ => [.joiner j]
  | .negation => []
  | .span _ text => (termsIn text).map (if negated then .lacks else .contains)
  | .run text => (termsIn text).map (if negated then .lacks else .contains)

theorem searchTerms_eq_termsIn (text : List Char) : searchTerms text = termsIn text := by
  rw [searchTerms, termsIn, words_eq]
  cases (text.splitOnP isBlank).filter (!·.isEmpty) <;> rfl

theorem negates_concat (before : List Lexeme) (lexeme : Lexeme) :
    negates (before ++ [lexeme]) =
      if lexeme.isJoiner then negates before else decide (lexeme = .negation) := by
  cases h : lexeme.isJoiner <;> simp [negates, List.filter_append, h]

theorem tokensOfLexemes_cons (before : List Lexeme) (lexeme : Lexeme) (later : List Lexeme) :
    tokensOfLexemes (negates before) (lexeme :: later) =
      lexeme.tokens (negates before) ++ tokensOfLexemes (negates (before ++ [lexeme])) later := by
  rw [negates_concat]
  cases lexeme <;>
    simp [tokensOfLexemes, tokens, isJoiner, termTokens, searchTerms_eq_termsIn]

theorem tokensOfLexemes_eq (before later : List Lexeme) :
    tokensOfLexemes (negates before) later =
      (later.mapIdx fun i lexeme => lexeme.tokens (negates (before ++ later.take i))).flatten := by
  induction later generalizing before with
  | nil => rfl
  | cons lexeme later ih =>
    rw [tokensOfLexemes_cons, ih, List.mapIdx_cons, List.flatten_cons]
    simp

end Lexeme

/-- The term of a token. Where there is none, it is empty. -/
def SearchToken.value : SearchToken → String
  | .contains term => term
  | .lacks term => term
  | _ => ""

/-- There are no blanks in the terms of a text. -/
theorem isBlank_of_mem_searchTerms {text : List Char} {term : String}
    (hterm : term ∈ searchTerms text) {c : Char} (hc : c ∈ term.toList) : isBlank c = false := by
  rw [searchTerms] at hterm
  split at hterm
  · rw [List.mem_singleton.1 hterm] at hc
    exact absurd hc (by simp)
  · obtain ⟨word, hword, rfl⟩ := List.mem_map.1 hterm
    exact isBlank_of_mem_words hword (by simpa using hc)

theorem isBlank_of_mem_termTokens {negated : Bool} {text : List Char} {token : SearchToken}
    (htoken : token ∈ termTokens negated text) {c : Char} (hc : c ∈ token.value.toList) :
    isBlank c = false := by
  obtain ⟨term, hterm, rfl⟩ := List.mem_map.1 htoken
  cases negated <;> exact isBlank_of_mem_searchTerms hterm hc

theorem isBlank_of_mem_tokensOfLexemes {negated : Bool} {later : List Lexeme} {token : SearchToken}
    (htoken : token ∈ tokensOfLexemes negated later) {c : Char} (hc : c ∈ token.value.toList) :
    isBlank c = false := by
  fun_induction tokensOfLexemes negated later with
  | case1 => cases htoken
  | case2 negated j letters later ih =>
    rcases List.mem_cons.1 htoken with rfl | htoken
    · exact absurd hc (by simp [SearchToken.value])
    · exact ih htoken
  | case3 negated later ih => exact ih htoken
  | case4 negated quote text later ih | case5 negated text later ih =>
    rcases List.mem_append.1 htoken with htoken | htoken
    · exact isBlank_of_mem_termTokens htoken hc
    · exact ih htoken

theorem isBlank_of_mem_searchTokens {expression : String} {token : SearchToken}
    (htoken : token ∈ searchTokens expression) {c : Char} (hc : c ∈ token.value.toList) :
    isBlank c = false := by
  rw [searchTokens] at htoken
  split at htoken
  · rw [List.mem_singleton.1 htoken] at hc
    exact absurd hc (by simp [SearchToken.value])
  · rw [List.mem_singleton.1 htoken] at hc
    exact absurd hc (by simp [SearchToken.value])
  · rw [List.mem_singleton.1 htoken] at hc
    exact absurd hc (by simp [SearchToken.value])
  · exact isBlank_of_mem_tokensOfLexemes htoken hc

/-- The tokens of a search expression are those of its lexemes, in order. Its blanks and
    lexemes are found in one way only, and nothing else is in it: every text is a search
    expression. A lone star or percent sign asks for everything, and a blank text for
    the empty value. Blanks never get into a term. -/
theorem searchTokens_splits (expression : String) :
    (if trim expression.toList = ['*'] ∨ trim expression.toList = ['%'] then
      searchTokens expression = [.all]
    else if expression.toList.all isBlank = true then
      searchTokens expression = [.contains ""]
    else
      ∃ pieces : List Piece,
        (∀ others, Splits expression.toList others ↔ others = pieces) ∧
        pieces.flatMap Piece.source = expression.toList ∧
        ∃ row : List Lexeme, row = pieces.filterMap Piece.lexeme? ∧
          searchTokens expression =
            (row.mapIdx fun i lexeme => lexeme.tokens (Lexeme.negates (row.take i))).flatten) ∧
    ∀ token ∈ searchTokens expression, ∀ c ∈ token.value.toList, isBlank c = false := by
  refine ⟨?_, fun token htoken c hc => isBlank_of_mem_searchTokens htoken hc⟩
  by_cases hall : trim expression.toList = ['*'] ∨ trim expression.toList = ['%']
  · rw [if_pos hall]
    rcases hall with hall | hall <;> simp only [searchTokens, hall]
  · rw [if_neg hall]
    rw [not_or] at hall
    by_cases hblank : expression.toList.all isBlank = true
    · rw [if_pos hblank, searchTokens, trim_eq_nil_iff.2 (List.all_eq_true.1 hblank)]
    · obtain ⟨pieces, hsplits, hlexemes⟩ := exists_splits expression.toList
      rw [if_neg hblank]
      refine ⟨pieces, fun others => ⟨fun hothers => hothers.unique hsplits, ?_⟩,
        hsplits.flatMap_source, lexemes expression.toList, hlexemes.symm, ?_⟩
      · rintro rfl
        exact hsplits
      · have htokens :
            searchTokens expression = tokensOfLexemes false (lexemes expression.toList) := by
          rw [searchTokens]
          split
          · next hnil => exact absurd (List.all_eq_true.2 (trim_eq_nil_iff.1 hnil)) hblank
          · next hstar => exact absurd hstar hall.1
          · next hpercent => exact absurd hpercent hall.2
          · rfl
        exact htokens.trans (Lexeme.tokensOfLexemes_eq [] _)

end ShadowCatalog
