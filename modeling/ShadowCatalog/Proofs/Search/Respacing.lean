import ShadowCatalog.Proofs.Search.Grammar

/-!
# Blanks in search expressions

How the blanks of a search expression are written makes no difference: an expression has
the tokens that it has *single-spaced*, each run of blanks being written as one space and
none at the ends (`searchTokens_singleSpaced`).

A text is respaced from its start to its end; the blanks at the end may become something
else than a space. Each rule for a lexeme commutes with it (`Lexeme.leading_respaced`): a
blank ends a word wherever another one does, and a span is closed by the same quote. So
the lexemes are the same but for the blanks within spans, and of a span a search
expression only has the words.
-/

namespace ShadowCatalog

namespace Text

/-- What a blank before a text is written as: as nothing before another blank, and as
    `last` at the end. -/
def gap (last : List Char) : List Char → List Char
  | [] => last
  | c :: _ => if isBlank c then [] else [' ']

/-- A text with each run of blanks, as long as possible, written as one space, and as
    `last` at the end. -/
def respaced (last : List Char) : List Char → List Char
  | [] => []
  | c :: cs => (if isBlank c then gap last cs else [c]) ++ respaced last cs

/-- An expression with each run of blanks, as long as possible, written as one space, and
    without the blanks at its two ends. -/
def singleSpaced (expression : String) : String :=
  String.ofList (trim (respaced [' '] expression.toList))

variable {last : List Char} {c : Char}

theorem respaced_cons (hc : isBlank c = false) (cs : List Char) :
    respaced last (c :: cs) = c :: respaced last cs := by
  rw [respaced, if_neg (Bool.eq_false_iff.1 hc), List.singleton_append]

theorem respaced_blank_cons (hc : isBlank c = true) (cs : List Char) :
    respaced last (c :: cs) = gap last cs ++ respaced last cs := by
  rw [respaced, if_pos hc]

theorem isBlank_of_mem_space : ∀ c ∈ [' '], isBlank c = true :=
  List.forall_mem_singleton.2 (by decide)

theorem isBlank_of_mem_gap (hlast : ∀ c ∈ last, isBlank c = true) {cs : List Char} :
    ∀ c ∈ gap last cs, isBlank c = true := by
  cases cs with
  | nil => exact hlast
  | cons d cs => by_cases hd : isBlank d = true <;> simp [gap, hd, show isBlank ' ' = true from rfl]

section

variable (hlast : ∀ c ∈ last, isBlank c = true)
include hlast

/-- Where a text begins with a blank, it does so respaced, if anything is left. -/
theorem isBlank_head_respaced (hc : isBlank c = true) (cs : List Char) :
    ∀ d ∈ (respaced last (c :: cs)).head?, isBlank d = true := by
  induction cs generalizing c with
  | nil => simpa [respaced, hc, gap] using fun d hd => hlast d (List.mem_of_head? hd)
  | cons e cs ih =>
    by_cases he : isBlank e = true
    · simpa [respaced_blank_cons hc, gap, he] using ih he
    · simp [respaced_blank_cons hc, gap, he, show isBlank ' ' = true from rfl]

/-- A word is kept, and nothing else becomes the same. -/
theorem append_eq_respaced_iff {word rest cs : List Char} (hword : ∀ c ∈ word, isBlank c = false) :
    word ++ rest = respaced last cs ↔ ∃ later, word ++ later = cs ∧ respaced last later = rest := by
  induction word generalizing cs with
  | nil => simp [eq_comm]
  | cons c word ih =>
    rw [List.forall_mem_cons] at hword
    cases cs with
    | nil => simp [respaced]
    | cons d cs =>
      cases hd : isBlank d with
      | true =>
        have hne : c ≠ d := by
          rintro rfl
          exact Bool.false_ne_true (hword.1.symm.trans hd)
        have hhead := isBlank_head_respaced hlast hd cs
        constructor
        · intro heq
          rw [← heq] at hhead
          exact absurd (hword.1.symm.trans (hhead c rfl)) (by decide)
        · rintro ⟨later, heq, -⟩
          exact absurd (List.cons.inj heq).1 hne
      | false =>
        rw [respaced_cons hd, List.cons_append, List.cons.injEq, ih hword.2]
        simp [and_assoc]

end

theorem splitAt?_append {quote : Char} {before : List Char} (hfree : quote ∉ before)
    (cs : List Char) :
    splitAt? quote (before ++ cs) =
      (splitAt? quote cs).map fun cut => (before ++ cut.1, cut.2) := by
  induction before with
  | nil => simp
  | cons c before ih =>
    rw [List.mem_cons, not_or] at hfree
    rw [List.cons_append, splitAt?, if_neg (Ne.symm hfree.1), ih hfree.2, Option.map_map]
    rfl

/-- What a blank is written as is settled by the text up to the next quote. -/
theorem gap_of_append {quote : Char} (hquote : isBlank quote = false) (before after : List Char) :
    gap last (before ++ quote :: after) = gap [' '] before := by
  cases before with
  | nil => simp [gap, hquote]
  | cons c before => rfl

/-- A text is cut in the same place. -/
theorem splitAt?_respaced (hlast : ∀ c ∈ last, isBlank c = true) {quote : Char}
    (hquote : isBlank quote = false) (cs : List Char) :
    splitAt? quote (respaced last cs) =
      (splitAt? quote cs).map (Prod.map (respaced [' ']) (respaced last)) := by
  have hother {c : Char} (hc : isBlank c = true) : c ≠ quote := by
    rintro rfl
    exact Bool.false_ne_true (hquote.symm.trans hc)
  induction cs with
  | nil => rfl
  | cons c cs ih =>
    cases hc : isBlank c with
    | false =>
      rw [respaced_cons hc, splitAt?, splitAt?, ih]
      by_cases heq : c = quote
      · simp [heq, respaced]
      · simp [heq, Function.comp_def, Prod.map, respaced_cons hc]
    | true =>
      have hfree : quote ∉ gap last cs :=
        fun hmem => hother (isBlank_of_mem_gap hlast quote hmem) rfl
      rw [respaced_blank_cons hc, splitAt?_append hfree, ih, splitAt?, if_neg (hother hc),
        Option.map_map, Option.map_map]
      cases hcut : splitAt? quote cs with
      | none => rfl
      | some cut =>
        rw [← splitAt?_eq_some hcut, gap_of_append hquote]
        simp [respaced_blank_cons hc]

theorem leadingWord_of_forall_isBlank {cs : List Char} (hblank : ∀ c ∈ cs, isBlank c = true) :
    leadingWord cs = ([], []) := by
  induction cs with
  | nil => rfl
  | cons c cs ih =>
    rw [List.forall_mem_cons] at hblank
    rw [leadingWord_cons, if_pos hblank.1, words_def, ih hblank.2]
    rfl

/-- The words of a text stay the same. -/
theorem leadingWord_respaced (hlast : ∀ c ∈ last, isBlank c = true) (cs : List Char) :
    leadingWord (respaced last cs) = leadingWord cs := by
  induction cs with
  | nil => rfl
  | cons c cs ih =>
    cases hc : isBlank c with
    | false => simp [respaced_cons hc, leadingWord_cons, hc, ih]
    | true =>
      rw [respaced_blank_cons hc]
      cases cs with
      | nil =>
        rw [gap, respaced, List.append_nil, leadingWord_of_forall_isBlank hlast,
          leadingWord_of_forall_isBlank (by simpa using hc)]
      | cons d cs =>
        by_cases hd : isBlank d = true
        · rw [gap, if_pos hd, List.nil_append, ih]
          simp [leadingWord_cons, words_def, hc, hd]
        · rw [gap, if_neg hd, List.singleton_append, leadingWord_cons, words_def, ih,
            leadingWord_cons c, if_pos hc, ← words_def]
          rfl

theorem words_respaced (hlast : ∀ c ∈ last, isBlank c = true) (cs : List Char) :
    words (respaced last cs) = words cs := by
  rw [words_def, leadingWord_respaced hlast, ← words_def]

end Text

open Text

/-! ## Lexemes -/

namespace Lexeme

/-- A lexeme with the blanks in it respaced. There are none except in spans. -/
def respaced : Lexeme → Lexeme
  | .span quote text => .span quote (Text.respaced [' '] text)
  | lexeme => lexeme

/-- No span starts with a blank. -/
theorem span?_of_isBlank_head {cs : List Char} (hhead : ∀ c ∈ cs.head?, isBlank c = true) :
    span? cs = none := by
  cases cs with
  | nil => rfl
  | cons c cs =>
    refine if_neg fun hquote => ?_
    rcases isQuote_iff.1 hquote with rfl | rfl <;> exact absurd (hhead _ rfl) (by decide)

theorem leadingRun_of_isBlank_head {cs : List Char} (hhead : ∀ c ∈ cs.head?, isBlank c = true) :
    leadingRun cs = (.run [], cs) := by
  cases cs with
  | nil => rfl
  | cons c cs => simp [leadingRun, hhead c rfl]

/-- The letters of a joiner are not blank. -/
theorem isBlank_of_mem_letters {j : Joiner} {letters : List Char}
    (h : sameLetters letters j.word.toList = true) : ∀ c ∈ letters, isBlank c = false := by
  intro c hc
  refine Bool.eq_false_iff.2 fun hblank => ?_
  have hmem : c.toLower ∈ j.word.toList.map Char.toLower :=
    eq_of_beq h ▸ List.mem_map_of_mem hc
  have hletters : ∀ d ∈ j.word.toList.map Char.toLower, isBlank d = false := by
    cases j <;> simp [Joiner.word, isBlank]
  rw [toLower_of_isBlank hblank] at hmem
  exact Bool.false_ne_true ((hletters c hmem).symm.trans hblank)

section

variable {last : List Char} (hlast : ∀ c ∈ last, isBlank c = true) (cs : List Char)
include hlast

theorem endsWord_respaced : endsWord (Text.respaced last cs) = endsWord cs := by
  cases cs with
  | nil => rfl
  | cons c cs =>
    cases hc : isBlank c with
    | false => rw [respaced_cons hc, endsWord, endsWord]
    | true =>
      have hhead := isBlank_head_respaced hlast hc cs
      rw [endsWord, hc, Bool.true_or, endsWord_iff]
      exact fun d hd => .inl (hhead d hd)

theorem joiner?_respaced (j : Joiner) :
    joiner? j (Text.respaced last cs) =
      (joiner? j cs).map (Prod.map respaced (Text.respaced last)) := by
  refine Option.ext fun ⟨lexeme, rest⟩ => ?_
  simp only [joiner?_eq_some_iff, Option.map_eq_some_iff, Prod.exists, Prod.map_apply,
    Prod.mk.injEq]
  constructor
  · rintro ⟨hsource, hfits, letters, rfl⟩
    cases hfits with | joiner hletters hend =>
    obtain ⟨later, rfl, rfl⟩ :=
      (append_eq_respaced_iff hlast (isBlank_of_mem_letters hletters)).1 hsource
    rw [← endsWord_iff, endsWord_respaced hlast, endsWord_iff] at hend
    exact ⟨_, later, ⟨rfl, .joiner hletters hend, letters, rfl⟩, rfl, rfl⟩
  · rintro ⟨_, later, ⟨rfl, hfits, letters, rfl⟩, rfl, rfl⟩
    cases hfits with | joiner hletters hend =>
    rw [← endsWord_iff, ← endsWord_respaced hlast, endsWord_iff] at hend
    exact ⟨(append_eq_respaced_iff hlast (isBlank_of_mem_letters hletters)).2 ⟨later, rfl, rfl⟩,
      .joiner hletters hend, letters, rfl⟩

theorem negation?_respaced :
    negation? (Text.respaced last cs) =
      (negation? cs).map (Prod.map respaced (Text.respaced last)) := by
  have hsign : ∀ c ∈ Lexeme.negation.source, isBlank c = false :=
    List.forall_mem_cons.2 ⟨by decide, List.forall_mem_singleton.2 (by decide)⟩
  refine Option.ext fun ⟨lexeme, rest⟩ => ?_
  simp only [negation?_eq_some_iff, Option.map_eq_some_iff, Prod.exists, Prod.map_apply,
    Prod.mk.injEq]
  constructor
  · rintro ⟨hsource, rfl⟩
    obtain ⟨later, rfl, rfl⟩ := (append_eq_respaced_iff hlast hsign).1 hsource
    exact ⟨_, later, ⟨rfl, rfl⟩, rfl, rfl⟩
  · rintro ⟨_, later, ⟨rfl, rfl⟩, rfl, rfl⟩
    exact ⟨(append_eq_respaced_iff hlast hsign).2 ⟨later, rfl, rfl⟩, rfl⟩

theorem span?_respaced :
    span? (Text.respaced last cs) =
      (span? cs).map (Prod.map respaced (Text.respaced last)) := by
  cases cs with
  | nil => rfl
  | cons c cs =>
    cases hc : isBlank c with
    | false =>
      rw [respaced_cons hc, span?, span?, splitAt?_respaced hlast hc]
      split
      · simp [Function.comp_def, Prod.map, respaced]
      · rfl
    | true =>
      have hhead : ∀ d ∈ (c :: cs).head?, isBlank d = true := by simpa using hc
      rw [span?_of_isBlank_head (isBlank_head_respaced hlast hc cs), span?_of_isBlank_head hhead]
      rfl

theorem leadingRun_respaced :
    leadingRun (Text.respaced last cs) =
      Prod.map respaced (Text.respaced last) (leadingRun cs) := by
  induction cs with
  | nil => rfl
  | cons c cs ih =>
    cases hc : isBlank c with
    | false =>
      simp only [leadingRun, Prod.map_apply, respaced, Prod.mk.injEq, run.injEq] at ih
      simp [respaced_cons hc, leadingRun, hc, respaced, ih.1, ih.2]
    | true =>
      have hhead : ∀ d ∈ (c :: cs).head?, isBlank d = true := by simpa using hc
      rw [leadingRun_of_isBlank_head (isBlank_head_respaced hlast hc cs),
        leadingRun_of_isBlank_head hhead]
      rfl

theorem leading_respaced :
    leading (Text.respaced last cs) =
      Prod.map respaced (Text.respaced last) (leading cs) := by
  rw [leading, joiner?_respaced hlast, joiner?_respaced hlast, negation?_respaced hlast,
    span?_respaced hlast, leadingRun_respaced hlast, leading]
  simp only [← Option.map_or, Option.getD_map]

end

end Lexeme

theorem lexemes_blank_cons {c : Char} (hc : isBlank c = true) (cs : List Char) :
    lexemes (c :: cs) = lexemes cs := by
  rw [lexemes.eq_def]
  exact dif_pos hc

theorem lexemes_cons {c : Char} (hc : isBlank c = false) (cs : List Char) :
    lexemes (c :: cs) =
      (Lexeme.leading (c :: cs)).1 :: lexemes (Lexeme.leading (c :: cs)).2 := by
  rw [lexemes.eq_def]
  exact dif_neg (Bool.eq_false_iff.1 hc)

/-- Blanks before a text are skipped. -/
theorem lexemes_append {blanks : List Char} (hblanks : ∀ c ∈ blanks, isBlank c = true)
    (cs : List Char) : lexemes (blanks ++ cs) = lexemes cs := by
  induction blanks with
  | nil => rfl
  | cons c blanks ih =>
    rw [List.forall_mem_cons] at hblanks
    rw [List.cons_append, lexemes_blank_cons hblanks.1, ih hblanks.2]

/-- The lexemes of a text stay the same but for the blanks within spans. -/
theorem lexemes_respaced {last : List Char} (hlast : ∀ c ∈ last, isBlank c = true)
    (cs : List Char) : lexemes (respaced last cs) = (lexemes cs).map Lexeme.respaced := by
  fun_induction lexemes cs with
  | case1 => rw [respaced, lexemes.eq_def]; rfl
  | case2 c cs hc ih => rw [respaced_blank_cons hc, lexemes_append (isBlank_of_mem_gap hlast), ih]
  | case3 c cs hc next ih =>
    rw [Bool.not_eq_true] at hc
    have hleading : Lexeme.leading (c :: respaced last cs) =
        (next.1.respaced, respaced last next.2) := by
      rw [← respaced_cons hc, Lexeme.leading_respaced hlast]
      rfl
    rw [respaced_cons hc, lexemes_cons hc, hleading, ih, List.map_cons]

/-- Of a span only the words count. -/
theorem tokensOfLexemes_map_respaced (negated : Bool) (row : List Lexeme) :
    tokensOfLexemes negated (row.map Lexeme.respaced) = tokensOfLexemes negated row := by
  have hterms (text : List Char) : searchTerms (respaced [' '] text) = searchTerms text := by
    rw [searchTerms, words_respaced isBlank_of_mem_space, searchTerms]
  fun_induction tokensOfLexemes negated row <;>
    simp_all [tokensOfLexemes, Lexeme.respaced, termTokens]

/-! ## Blanks at the ends -/

namespace Text

variable {cs : List Char}

theorem dropEndWhile_cons {c : Char} (hc : isBlank c = false) (cs : List Char) :
    dropEndWhile isBlank (c :: cs) = c :: dropEndWhile isBlank cs := by
  rw [dropEndWhile]
  cases dropEndWhile isBlank cs with
  | nil => simp [hc]
  | cons b bs => rfl

theorem dropWhile_respaced {last : List Char} (hlast : ∀ c ∈ last, isBlank c = true)
    (cs : List Char) :
    (respaced last cs).dropWhile isBlank = respaced last (cs.dropWhile isBlank) := by
  induction cs with
  | nil => rfl
  | cons c cs ih =>
    cases hc : isBlank c with
    | false => rw [respaced_cons hc, List.dropWhile_cons_of_neg (by simp [hc]),
        List.dropWhile_cons_of_neg (by simp [hc]), respaced_cons hc]
    | true => rw [respaced_blank_cons hc, List.dropWhile_append_of_pos (isBlank_of_mem_gap hlast),
        ih, List.dropWhile_cons_of_pos hc]

theorem dropEndWhile_respaced (cs : List Char) :
    dropEndWhile isBlank (respaced [' '] cs) = respaced [] cs := by
  induction cs with
  | nil => rfl
  | cons c cs ih =>
    cases hc : isBlank c with
    | false => rw [respaced_cons hc, dropEndWhile_cons hc, ih, respaced_cons hc]
    | true =>
      rw [respaced_blank_cons hc, respaced_blank_cons hc]
      cases cs with
      | nil => rfl
      | cons d cs =>
        by_cases hd : isBlank d = true
        · simpa only [gap, if_pos hd, List.nil_append] using ih
        · rw [Bool.not_eq_true] at hd
          rw [respaced_cons hd, respaced_cons hd] at ih ⊢
          simp only [gap, if_neg (Bool.eq_false_iff.1 hd), List.singleton_append]
          rw [dropEndWhile, ih]

/-- Single-spaced, a text is respaced with nothing at its end. -/
theorem trim_respaced (cs : List Char) :
    trim (respaced [' '] cs) = respaced [] (cs.dropWhile isBlank) := by
  rw [trim, dropWhile_respaced isBlank_of_mem_space, dropEndWhile_respaced]

theorem words_dropWhile (cs : List Char) : words (cs.dropWhile isBlank) = words cs := by
  induction cs with
  | nil => rfl
  | cons c cs ih =>
    cases hc : isBlank c with
    | false => rw [List.dropWhile_cons_of_neg (by simp [hc])]
    | true =>
      rw [List.dropWhile_cons_of_pos hc, ih, words_def (c :: cs), leadingWord_cons, if_pos hc]
      rfl

theorem leadingWord_dropEndWhile (cs : List Char) :
    leadingWord (dropEndWhile isBlank cs) = leadingWord cs := by
  induction cs with
  | nil => rfl
  | cons c cs ih =>
    rw [dropEndWhile, leadingWord_cons c cs, words_def, ← ih]
    cases dropEndWhile isBlank cs with
    | nil => by_cases hc : isBlank c = true <;> simp [hc, leadingWord]
    | cons b bs => rw [← words_def]; rfl

theorem words_trim (cs : List Char) : words (trim cs) = words cs := by
  rw [trim, words_def, leadingWord_dropEndWhile, ← words_def, words_dropWhile]

theorem dropEndWhile_of_leadingWord (h : (leadingWord cs).2 = []) :
    dropEndWhile isBlank cs = (leadingWord cs).1 := by
  induction cs with
  | nil => rfl
  | cons c cs ih =>
    rw [leadingWord_cons] at h ⊢
    cases hc : isBlank c with
    | false =>
      rw [hc] at h
      rw [dropEndWhile_cons hc, ih h]
      rfl
    | true =>
      -- There is no word after the blank.
      rw [if_pos hc, words_def] at h
      cases hword : (leadingWord cs).1 with
      | nil =>
        rw [hword] at h ih
        rw [dropEndWhile, ih h]
        simp [hc]
      | cons d ds => simp [hword] at h

/-- What is left of a text without its ends is its word, if there is at most one. -/
theorem trim_eq_flatten_words (h : (words cs).length ≤ 1) : trim cs = (words cs).flatten := by
  rw [← words_dropWhile] at h ⊢
  rw [trim]
  cases hcs : cs.dropWhile isBlank with
  | nil => rfl
  | cons c rest =>
    have hc : isBlank c = false := by
      have hstop := List.head?_dropWhile_not isBlank cs
      rw [hcs] at hstop
      simpa using hstop
    have hlater : (leadingWord (c :: rest)).2 = [] := by
      simpa [hcs, words_def, leadingWord_cons, hc] using h
    rw [dropEndWhile_of_leadingWord hlater, words_def, hlater, leadingWord_cons, hc]
    simp

end Text

/-! ## Search expressions -/

/-- The tokens of an expression by its words: a lone star or percent sign is its only word,
    and a blank expression has none. -/
theorem searchTokens_eq (expression : String) :
    searchTokens expression =
      if words expression.toList = [] then [.contains ""]
      else if words expression.toList = [['*']] ∨ words expression.toList = [['%']] then [.all]
      else tokensOfLexemes false (lexemes expression.toList) := by
  have htrim : (words expression.toList).length ≤ 1 →
      trim expression.toList = (words expression.toList).flatten := trim_eq_flatten_words
  have hword {word : List Char} (hwords : words expression.toList = [word]) :
      trim expression.toList = word := by
    simpa [hwords] using htrim
  split
  · next hnil =>
    rw [searchTokens, htrim (by simp [hnil]), hnil]
    rfl
  · next hsome =>
    split
    · next hall =>
      rcases hall with hall | hall <;> simp only [searchTokens, hword hall]
    · next hother =>
      rw [searchTokens]
      split
      · next hnil => exact absurd (by rw [← words_trim, hnil]; rfl) hsome
      · next hstar => exact absurd (.inl (by rw [← words_trim, hstar]; rfl)) hother
      · next hpercent => exact absurd (.inr (by rw [← words_trim, hpercent]; rfl)) hother
      · rfl

/-- An expression has the tokens that it has with each run of blanks, as long as possible,
    written as one space, and without the blanks at its two ends. -/
theorem searchTokens_singleSpaced (expression : String) :
    searchTokens (singleSpaced expression) = searchTokens expression := by
  have htext : (singleSpaced expression).toList =
      respaced [] (expression.toList.dropWhile isBlank) := by
    rw [singleSpaced, String.toList_ofList, trim_respaced]
  have hwords : words (singleSpaced expression).toList = words expression.toList := by
    rw [htext, words_respaced (List.forall_mem_nil _), words_dropWhile]
  have hskip : lexemes (expression.toList.dropWhile isBlank) = lexemes expression.toList := by
    have hblanks : ∀ c ∈ expression.toList.takeWhile isBlank, isBlank c = true :=
      fun c hc => List.all_eq_true.1 List.all_takeWhile c hc
    rw [← lexemes_append hblanks, List.takeWhile_append_dropWhile]
  rw [searchTokens_eq, searchTokens_eq, hwords, htext, lexemes_respaced (List.forall_mem_nil _),
    tokensOfLexemes_map_respaced, hskip]

/-- The span, which has blanks at both ends, still has two words; the quote in the last word
    is never closed. -/
example : searchTokens "\t!=  ' a\u3000\nb '  or \"c  " = searchTokens "!= ' a b ' or \"c" := by
  decide +kernel

end ShadowCatalog
