import ShadowCatalog.Search.Token
import ShadowCatalog.Text.Blank
import ShadowCatalog.Text.Letters

/-!
# Lexemes of a search expression

A search expression is a row of *lexemes* with blanks between, before and after
them. Where a lexeme starts, the first of these that fits is read:

* the word `AND` or `OR`, in letters of either case, if the text ends after it
  or a blank or a quote follows;
* the sign `!=`;
* a span between two quotes of the same kind, single or double;
* a run of characters that are not blank, as long as possible. A quote that is
  never closed is an ordinary character of such a run.

A lexeme keeps its text as written (`Lexeme.source`), and reading one takes
exactly that text from the front (`Lexeme.leading_source`).
-/

namespace ShadowCatalog

open Text

/-- A lexeme. -/
inductive Lexeme
  /-- A joiner, and the letters it was written in. -/
  | joiner (joiner : Joiner) (letters : List Char)
  /-- The sign `!=`. -/
  | negation
  /-- A text between two quotes. -/
  | span (quote : Char) (text : List Char)
  /-- A run of characters. -/
  | run (text : List Char)
  deriving DecidableEq, Repr

namespace Lexeme

/-- The text of a lexeme as written. -/
def source : Lexeme → List Char
  | .joiner _ letters => letters
  | .negation => ['!', '=']
  | .span quote text => quote :: (text ++ [quote])
  | .run text => text

/-- The quotes. -/
def isQuote (c : Char) : Bool := c == '"' || c == '\''

/-- A joiner may end before this text. -/
def endsWord : List Char → Bool
  | [] => true
  | c :: _ => isBlank c || isQuote c

/-- The joiner at the start of a text, and the rest. -/
def joiner? (j : Joiner) (cs : List Char) : Option (Lexeme × List Char) :=
  let size := j.word.toList.length
  let letters := cs.take size
  let rest := cs.drop size
  if sameLetters letters j.word.toList && endsWord rest then some (.joiner j letters, rest)
  else none

/-- The sign at the start of a text, and the rest. -/
def negation? : List Char → Option (Lexeme × List Char)
  | '!' :: '=' :: rest => some (.negation, rest)
  | _ => none

/-- The quoted span at the start of a text, and the rest. -/
def span? : List Char → Option (Lexeme × List Char)
  | [] => none
  | c :: cs =>
    if isQuote c then (splitAt? c cs).map fun (text, rest) => (.span c text, rest) else none

/-- The run at the start of a text, and the rest. -/
def leadingRun (cs : List Char) : Lexeme × List Char :=
  (.run (cs.takeWhile (!isBlank ·)), cs.dropWhile (!isBlank ·))

/-- The lexeme at the start of a text, and the rest. -/
def leading (cs : List Char) : Lexeme × List Char :=
  ((((joiner? .and cs).or (joiner? .or cs)).or (negation? cs)).or (span? cs)).getD (leadingRun cs)

/-! ## Reading takes the lexeme from the front -/

theorem source_joiner? {j : Joiner} {cs : List Char} {l : Lexeme} {rest : List Char}
    (h : joiner? j cs = some (l, rest)) : l.source ++ rest = cs := by
  simp only [joiner?] at h
  split at h
  · cases h
    exact List.take_append_drop _ _
  · exact nomatch h

theorem source_negation? {cs : List Char} {l : Lexeme} {rest : List Char}
    (h : negation? cs = some (l, rest)) : l.source ++ rest = cs := by
  unfold negation? at h
  split at h
  · cases h; rfl
  · exact nomatch h

theorem source_span? {cs : List Char} {l : Lexeme} {rest : List Char}
    (h : span? cs = some (l, rest)) : l.source ++ rest = cs := by
  cases cs with
  | nil => exact nomatch h
  | cons c cs =>
    simp only [span?] at h
    split at h
    · obtain ⟨⟨text, after⟩, hs, he⟩ := Option.map_eq_some_iff.1 h
      cases he
      simp [source, ← splitAt?_eq_some hs]
    · exact nomatch h

theorem source_leadingRun (cs : List Char) :
    (leadingRun cs).1.source ++ (leadingRun cs).2 = cs :=
  List.takeWhile_append_dropWhile

theorem leading_source (cs : List Char) : (leading cs).1.source ++ (leading cs).2 = cs := by
  unfold leading
  rcases h : ((((joiner? .and cs).or (joiner? .or cs)).or (negation? cs)).or (span? cs)) with
    _ | ⟨l, rest⟩
  · exact source_leadingRun cs
  · rw [Option.getD_some]
    simp only [Option.or_eq_some_iff] at h
    rcases h with ((h | ⟨-, h⟩) | ⟨-, h⟩) | ⟨-, h⟩
    · exact source_joiner? h
    · exact source_joiner? h
    · exact source_negation? h
    · exact source_span? h

/-! ## A lexeme is not empty -/

theorem ne_nil_of_sameLetters {letters word : List Char} (hw : word ≠ [])
    (h : sameLetters letters word = true) : letters ≠ [] := by
  rintro rfl
  cases word with
  | nil => exact hw rfl
  | cons c cs => simp [sameLetters] at h

theorem joiner?_source_ne_nil {j : Joiner} {cs : List Char} {l : Lexeme} {rest : List Char}
    (h : joiner? j cs = some (l, rest)) : l.source ≠ [] := by
  simp only [joiner?] at h
  split at h
  · next hs =>
    cases h
    refine ne_nil_of_sameLetters ?_ (Bool.and_eq_true_iff.1 hs).1
    cases j <;> simp [Joiner.word]
  · exact nomatch h

/-- Where no blank stands, there is something to read. -/
theorem leading_source_ne_nil {c : Char} (cs : List Char) (hc : isBlank c = false) :
    (leading (c :: cs)).1.source ≠ [] := by
  unfold leading
  rcases h : ((((joiner? .and (c :: cs)).or (joiner? .or (c :: cs))).or
    (negation? (c :: cs))).or (span? (c :: cs))) with _ | ⟨l, rest⟩
  · simp [leadingRun, source, hc]
  · rw [Option.getD_some]
    simp only [Option.or_eq_some_iff] at h
    rcases h with ((h | ⟨-, h⟩) | ⟨-, h⟩) | ⟨-, h⟩
    · exact joiner?_source_ne_nil h
    · exact joiner?_source_ne_nil h
    · unfold negation? at h
      split at h
      · cases h; simp [source]
      · exact nomatch h
    · simp only [span?] at h
      split at h
      · obtain ⟨⟨text, after⟩, -, he⟩ := Option.map_eq_some_iff.1 h
        cases he
        simp [source]
      · exact nomatch h

/-- Reading a lexeme leaves less to read. -/
theorem leading_length_lt {c : Char} {cs : List Char} (hc : isBlank c = false) :
    (leading (c :: cs)).2.length < (c :: cs).length := by
  have h := congrArg List.length (leading_source (c :: cs))
  have hne := List.length_pos_iff.2 (leading_source_ne_nil cs hc)
  rw [List.length_append] at h
  omega

end Lexeme

/-- The lexemes of a text, in order. -/
def lexemes : List Char → List Lexeme
  | [] => []
  | c :: cs =>
    if _hc : isBlank c then lexemes cs
    else
      let next := Lexeme.leading (c :: cs)
      next.1 :: lexemes next.2
termination_by cs => cs.length
decreasing_by
  · simp
  · exact Lexeme.leading_length_lt (by simpa using _hc)

end ShadowCatalog
