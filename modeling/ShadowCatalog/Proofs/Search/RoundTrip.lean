import ShadowCatalog.Proofs.Search.Respacing

/-!
# Written search tokens

The texts of search tokens, with a space between any two, are a search expression for
just these tokens (`searchTokens_written`). A term stands between quotes, so that nothing
in it is taken for a joiner, a negation or a wish for everything. Its text has to be *plain*
for that: without blanks, and without characters that are written as others.

Token by token, a text is read as the lexemes that were written (`lexemes_text_append`). It
matters what follows: a joiner ends before a space, and the quote that closes a span is
the first one after its start.
-/

namespace ShadowCatalog

open Text

/-- A text has no blanks, and is written as itself between quotes. -/
structure PlainText (text : String) : Prop where
  isBlank : ∀ c ∈ text.toList, isBlank c = false
  quoted : quoted text = "\"" ++ text ++ "\""

instance : DecidablePred PlainText := fun text =>
  decidable_of_iff
    (text.toList.any isBlank = false ∧ quoted text = "\"" ++ text ++ "\"")
    ⟨fun h => ⟨fun c hc => Bool.eq_false_iff.2 (List.any_eq_false.1 h.1 c hc), h.2⟩,
      fun h => ⟨List.any_eq_false.2 fun c hc => Bool.eq_false_iff.1 (h.isBlank c hc), h.quoted⟩⟩

namespace SearchToken

/-- The token asks for something in particular, and its term, if it has one, is plain. -/
def Plain : SearchToken → Prop
  | .all => False
  | .joiner _ => True
  | .contains term => PlainText term
  | .lacks term => PlainText term

instance : DecidablePred Plain
  | .all => inferInstanceAs (Decidable False)
  | .joiner _ => inferInstanceAs (Decidable True)
  | .contains term => inferInstanceAs (Decidable (PlainText term))
  | .lacks term => inferInstanceAs (Decidable (PlainText term))

/-- Tokens as a search expression. -/
def written (tokens : List SearchToken) : String := " ".intercalate (tokens.map text)

/-- The lexemes in the text of a token. -/
def lexemes : SearchToken → List Lexeme
  | .all => [.run ['*']]
  | .joiner j => [.joiner j j.word.toList]
  | .contains term => [.span '"' term.toList]
  | .lacks term => [.negation, .span '"' term.toList]

end SearchToken

/-! ## What is shown as itself -/

namespace Text

theorem quotedChar_ne_nil (c : Char) : quotedChar c ≠ [] := by
  unfold quotedChar
  split_ifs <;> simp

/-- A text that is shown as itself has no quotes. -/
theorem not_mem_of_flatMap_quotedChar {cs : List Char} (h : cs.flatMap quotedChar = cs) :
    '"' ∉ cs := by
  have hlength (cs : List Char) : cs.length ≤ (cs.flatMap quotedChar).length := by
    induction cs with
    | nil => exact Nat.le_refl 0
    | cons c cs ih =>
      have hc := List.length_pos_iff.2 (quotedChar_ne_nil c)
      rw [List.flatMap_cons, List.length_append, List.length_cons]
      omega
  induction cs with
  | nil => exact List.not_mem_nil
  | cons c cs ih =>
    rw [List.flatMap_cons] at h
    have hone : (quotedChar c).length = [c].length := by
      have hc := List.length_pos_iff.2 (quotedChar_ne_nil c)
      have hrest := hlength cs
      have htotal := congrArg List.length h
      rw [List.length_append, List.length_cons] at htotal
      rw [List.length_singleton]
      omega
    obtain ⟨hc, hcs⟩ := List.append_inj (h.trans List.singleton_append.symm) hone
    refine List.not_mem_cons_of_ne_of_not_mem ?_ (ih hcs)
    rintro rfl
    exact absurd hone (by decide)

theorem leadingWord_eq {cs : List Char} (h : ∀ c ∈ cs, isBlank c = false) :
    leadingWord cs = (cs, []) := by
  induction cs with
  | nil => rfl
  | cons c cs ih =>
    rw [List.forall_mem_cons] at h
    rw [leadingWord_cons, if_neg (Bool.eq_false_iff.1 h.1), ih h.2]

theorem toList_quoted (text : String) :
    (quoted text).toList = '"' :: (text.toList.flatMap quotedChar ++ ['"']) := by
  rw [quoted, String.toList_ofList, List.cons_append]

end Text

namespace PlainText

variable {text : String} (h : PlainText text)
include h

theorem toList_quoted : (Text.quoted text).toList = '"' :: (text.toList ++ ['"']) := by
  rw [h.quoted, String.toList_append, String.toList_append]
  rfl

theorem not_mem : '"' ∉ text.toList := by
  have hquoted := h.toList_quoted
  rw [Text.toList_quoted, List.cons.injEq] at hquoted
  exact not_mem_of_flatMap_quotedChar (List.append_cancel_right hquoted.2)

/-- A plain text is its only term. -/
theorem searchTerms_eq : searchTerms text.toList = [text] := by
  rw [searchTerms, words_def, leadingWord_eq h.isBlank]
  cases hcs : text.toList with
  | nil => simp [String.toList_eq_nil_iff.1 hcs]
  | cons c cs =>
    have hterm : String.ofList (c :: cs) = text := by rw [← hcs, String.ofList_toList]
    exact congrArg (fun term => [term]) hterm

end PlainText

/-! ## Reading what was written -/

namespace Lexeme

variable {rest : List Char}

/-- No joiner starts with another letter than `a` and `o`. -/
theorem joiner?_eq_none {c : Char} (hand : c.toLower ≠ 'a') (hor : c.toLower ≠ 'o') (j : Joiner)
    (cs : List Char) : joiner? j (c :: cs) = none := by
  rw [joiner?]
  cases j <;> simp [sameLetters, Joiner.word, hand, hor]

theorem leading_joiner (j : Joiner) (hend : endsWord rest = true) :
    leading (j.word.toList ++ rest) = (.joiner j j.word.toList, rest) := by
  have hread : joiner? j (j.word.toList ++ rest) = some (.joiner j j.word.toList, rest) :=
    joiner?_eq_some_iff.2 ⟨rfl, .joiner (by cases j <;> decide) (endsWord_iff.1 hend), _, rfl⟩
  cases j with
  | and => rw [leading, hread]; rfl
  | or =>
    have hand : joiner? .and (Joiner.or.word.toList ++ rest) = none := by
      by_contra hsome
      obtain ⟨read, hsome⟩ := Option.ne_none_iff_exists'.1 hsome
      exact absurd (hread.symm.trans (joiner?_or_eq_none hsome)) (by simp)
    rw [leading, hand, hread]
    rfl

theorem leading_negation (rest : List Char) : leading ('!' :: '=' :: rest) = (.negation, rest) := by
  rw [leading, joiner?_eq_none (by decide) (by decide), joiner?_eq_none (by decide) (by decide)]
  rfl

theorem leading_span {text : List Char} (hfree : '"' ∉ text) (rest : List Char) :
    leading ('"' :: (text ++ '"' :: rest)) = (.span '"' text, rest) := by
  have hread : span? ('"' :: (text ++ '"' :: rest)) = some (.span '"' text, rest) :=
    span?_eq_some_iff.2 ⟨by simp [source], .span (.inl rfl) hfree, _, _, rfl⟩
  rw [leading, joiner?_eq_none (by decide) (by decide), joiner?_eq_none (by decide) (by decide),
    hread]
  rfl

end Lexeme

theorem lexemes_span {text : List Char} (hfree : '"' ∉ text) (rest : List Char) :
    lexemes ('"' :: (text ++ '"' :: rest)) = .span '"' text :: lexemes rest := by
  rw [lexemes_cons rfl, Lexeme.leading_span hfree]

/-- The text of a token is read as its lexemes if a space follows or nothing. -/
theorem lexemes_text_append {token : SearchToken} (htoken : token.Plain) {rest : List Char}
    (hrest : Lexeme.endsWord rest = true) :
    lexemes (token.text.toList ++ rest) = token.lexemes ++ lexemes rest := by
  cases token with
  | all => cases htoken
  | joiner j =>
    obtain ⟨c, cs, hcs, hc⟩ : ∃ c cs, j.word.toList ++ rest = c :: cs ∧ isBlank c = false := by
      cases j <;> exact ⟨_, _, rfl, rfl⟩
    rw [SearchToken.text, hcs, lexemes_cons hc, ← hcs, Lexeme.leading_joiner j hrest]
    rfl
  | contains term =>
    rw [SearchToken.text, htoken.toList_quoted, List.cons_append, List.append_assoc,
      List.singleton_append, lexemes_span htoken.not_mem]
    rfl
  | lacks term =>
    have htext : (SearchToken.lacks term).text.toList ++ rest =
        '!' :: '=' :: '"' :: (term.toList ++ '"' :: rest) := by
      simp [SearchToken.text, htoken.toList_quoted]
    rw [htext, lexemes_cons (by decide), Lexeme.leading_negation, lexemes_span htoken.not_mem]
    rfl

theorem toList_written_cons_cons (token next : SearchToken) (later : List SearchToken) :
    (SearchToken.written (token :: next :: later)).toList =
      token.text.toList ++ ' ' :: (SearchToken.written (next :: later)).toList := by
  simp [SearchToken.written]

/-- The text of tokens is read as their lexemes. -/
theorem lexemes_written {tokens : List SearchToken} (htokens : ∀ token ∈ tokens, token.Plain) :
    lexemes (SearchToken.written tokens).toList = tokens.flatMap SearchToken.lexemes := by
  induction tokens with
  | nil => rw [lexemes.eq_def]; rfl
  | cons token tokens ih =>
    rw [List.forall_mem_cons] at htokens
    rw [List.flatMap_cons, ← ih htokens.2]
    cases tokens with
    | nil =>
      have hread : lexemes (token.text.toList ++ []) = token.lexemes ++ lexemes [] :=
        lexemes_text_append htokens.1 rfl
      simpa [SearchToken.written] using hread
    | cons next later =>
      rw [toList_written_cons_cons, lexemes_text_append htokens.1 rfl, lexemes_blank_cons rfl]

theorem tokensOfLexemes_append {token : SearchToken} (htoken : token.Plain) (row : List Lexeme) :
    tokensOfLexemes false (token.lexemes ++ row) = token :: tokensOfLexemes false row := by
  cases token with
  | all => cases htoken
  | joiner j => rfl
  | contains term =>
    simp [SearchToken.lexemes, tokensOfLexemes, termTokens, PlainText.searchTerms_eq htoken]
  | lacks term =>
    simp [SearchToken.lexemes, tokensOfLexemes, termTokens, PlainText.searchTerms_eq htoken]

theorem tokensOfLexemes_flatMap {tokens : List SearchToken}
    (htokens : ∀ token ∈ tokens, token.Plain) :
    tokensOfLexemes false (tokens.flatMap SearchToken.lexemes) = tokens := by
  induction tokens with
  | nil => rfl
  | cons token tokens ih =>
    rw [List.forall_mem_cons] at htokens
    rw [List.flatMap_cons, tokensOfLexemes_append htokens.1, ih htokens.2]

/-! ## Search expressions -/

/-- A text that starts with something else than a blank, a star or a percent sign is read
    by its lexemes. -/
theorem searchTokens_of_head {expression : String} {c : Char} {cs : List Char}
    (htext : expression.toList = c :: cs) (hc : isBlank c = false) (hstar : c ≠ '*')
    (hpercent : c ≠ '%') :
    searchTokens expression = tokensOfLexemes false (lexemes expression.toList) := by
  have hwords : words expression.toList = (c :: (leadingWord cs).1) :: (leadingWord cs).2 := by
    rw [htext, words_def, leadingWord_cons, hc]
    rfl
  rw [searchTokens_eq, hwords]
  simp [hstar, hpercent]

/-- A plain token is not written with a blank, a star or a percent sign at its start. -/
theorem exists_cons_of_plain {token : SearchToken} (htoken : token.Plain) :
    ∃ c cs, token.text.toList = c :: cs ∧ isBlank c = false ∧ c ≠ '*' ∧ c ≠ '%' := by
  cases token with
  | all => cases htoken
  | joiner j => cases j <;> exact ⟨_, _, rfl, by decide⟩
  | contains term => exact ⟨_, _, htoken.toList_quoted, by decide⟩
  | lacks term => exact ⟨'!', '=' :: (quoted term).toList, by simp [SearchToken.text], by decide⟩

theorem exists_cons_written {tokens : List SearchToken} (hne : tokens ≠ [])
    (htokens : ∀ token ∈ tokens, token.Plain) :
    ∃ c cs, (SearchToken.written tokens).toList = c :: cs ∧ isBlank c = false ∧ c ≠ '*' ∧
      c ≠ '%' := by
  obtain ⟨token, later, rfl⟩ := List.exists_cons_of_ne_nil hne
  obtain ⟨c, cs, htext, hc⟩ := exists_cons_of_plain (htokens token List.mem_cons_self)
  cases later with
  | nil => exact ⟨c, cs, by simpa [SearchToken.written] using htext, hc⟩
  | cons next later => exact ⟨c, _, by rw [toList_written_cons_cons, htext, List.cons_append], hc⟩

/-- The texts of plain tokens, with a space between any two, are a search expression for
    these tokens, and so is the text of a lone wish for everything. -/
theorem searchTokens_written {tokens : List SearchToken}
    (htokens : tokens = [.all] ∨ tokens ≠ [] ∧ ∀ token ∈ tokens, token.Plain) :
    searchTokens (SearchToken.written tokens) = tokens := by
  rcases htokens with rfl | ⟨hne, hplain⟩
  · decide +kernel
  · obtain ⟨c, cs, htext, hc, hstar, hpercent⟩ := exists_cons_written hne hplain
    rw [searchTokens_of_head htext hc hstar hpercent, lexemes_written hplain,
      tokensOfLexemes_flatMap hplain]

/-- Joiners in a row, and terms that would have a meaning without their quotes. -/
theorem searchTokens_written_protected :
    let tokens : List SearchToken :=
      [.joiner .or, .joiner .and, .lacks "", .contains "and", .contains "!=", .lacks "it's*%",
        .contains "*", .contains "é", .joiner .or]
    (∀ token ∈ tokens, token.Plain) ∧
      SearchToken.written tokens = "OR AND !=\"\" \"and\" \"!=\" !=\"it's*%\" \"*\" \"é\" OR" ∧
        searchTokens (SearchToken.written tokens) = tokens := by
  intro tokens
  have hplain : ∀ token ∈ tokens, token.Plain := by decide +kernel
  exact ⟨hplain, by decide +kernel, searchTokens_written (.inr ⟨by simp [tokens], hplain⟩)⟩

end ShadowCatalog
