import Mathlib.Data.List.Basic
import Mathlib.Tactic.Common
import ShadowCatalog.Proofs.Browse.Mentions
import ShadowCatalog.Proofs.Sql.Pattern

/-!
# What a search term finds

A term is to be found in the texts that contain it: its pieces between `*` occur in the
text, in order and without overlap, and every other character of the term stands for itself
(`ContainsTerm`). For each term a pattern is bound, which the database compares with the
text. It is never refused, and finds what it should as long as the term has no special
characters (`Pattern.contains_of_ilike`).

The special characters are bound as they are. With a `%` or `_` in the term the pattern
still finds all texts that contain the term (`Pattern.ilike_of_contains`), but other
texts too; with a backslash it may also miss some. That there always is a text on which
pattern and term differ is seen from the shortest text of the pattern, which lacks special
characters of the term (`Pattern.count_shortest_lt`). So the terms without special
characters are the only ones that are searched for as they should be
(`Condition.searches_of_term`).
-/

namespace ShadowCatalog

/-- The pieces occur in a text, in order and without overlap. -/
def Occur (folding : CaseFolding) : List (List Char) → List Char → Prop
  | [], _ => True
  | piece :: pieces, text => ∃ before found after, before ++ (found ++ after) = text ∧
      folding.Alike piece found ∧ Occur folding pieces after

/-- The pieces of a term between `*` occur in a text. -/
def ContainsTerm (folding : CaseFolding) (term text : String) : Prop :=
  Occur folding (term.toList.splitOn '*') text.toList

/-- No character of a term means something in a pattern. -/
def PlainTerm (term : String) : Prop := ∀ c ∈ term.toList, isSpecial c = false

/-- How a pattern searches for a term. -/
structure Searches (folding : CaseFolding) (pattern term : String) : Prop where
  accepted : ∀ text, (ilike folding pattern text).isSome
  complete : '\\' ∉ term.toList →
    ∀ text, ContainsTerm folding term text → ilike folding pattern text = some true
  exact_iff : (∀ text, ilike folding pattern text = some true ↔ ContainsTerm folding term text) ↔
    PlainTerm term

variable {folding : CaseFolding} {cs text : List Char} {x : Char}

theorem PlainTerm.not_mem {term : String} (h : PlainTerm term) : '\\' ∉ term.toList :=
  fun hmem => Bool.false_ne_true (h _ hmem).symm

/-! ## Pieces -/

theorem splitOn_cons (c : Char) (cs : List Char) :
    (c :: cs).splitOn '*' =
      if c = '*' then [] :: cs.splitOn '*' else (cs.splitOn '*').modifyHead (c :: ·) := by
  simp only [List.splitOn_eq_splitOnP, List.splitOnP_cons_eq_if_modifyHead, beq_iff_eq]

/-- The pieces are made up of all characters but `*`. -/
theorem flatten_splitOn (cs : List Char) : (cs.splitOn '*').flatten = cs.filter (· ≠ '*') := by
  induction cs with
  | nil => rfl
  | cons c cs ih =>
    rw [splitOn_cons]
    split
    · next hc =>
      rw [List.filter_cons_of_neg (by simp [hc]), List.flatten_cons, List.nil_append, ih]
    · next hc =>
      obtain ⟨piece, pieces, hsplit⟩ := List.exists_cons_of_ne_nil (List.splitOn_ne_nil '*' cs)
      rw [List.filter_cons_of_pos (by simp [hc]), ← ih, hsplit]
      rfl

/-- A special character is only alike to itself. -/
theorem CaseFolding.Alike.count_eq {a b : List Char} (h : folding.Alike a b)
    (hx : isSpecial x = true) : a.count x = b.count x := by
  induction a generalizing b with
  | nil =>
    obtain rfl : b = [] := List.map_eq_nil_iff.1 h.symm
    rfl
  | cons c a ih =>
    obtain ⟨d, b, rfl, hd, hb⟩ := List.map_eq_cons_iff.1 h.symm
    have hsame : c = x ↔ d = x := by
      constructor
      · rintro rfl
        exact (folding.apart c d hx hd.symm).symm
      · rintro rfl
        exact (folding.apart d c hx hd).symm
    rw [List.count_cons, List.count_cons, ih hb.symm]
    simp only [beq_iff_eq, hsame]

/-- A text has all the special characters of what occurs in it. -/
theorem Occur.count_le {pieces : List (List Char)} (h : Occur folding pieces text)
    (hx : isSpecial x = true) : pieces.flatten.count x ≤ text.count x := by
  induction pieces generalizing text with
  | nil => exact Nat.zero_le _
  | cons piece pieces ih =>
    obtain ⟨before, found, after, rfl, halike, hafter⟩ := h
    have hle := ih hafter
    rw [List.flatten_cons, List.count_append, List.count_append, List.count_append,
      halike.count_eq hx]
    omega

theorem ContainsTerm.count_le {term text : String} (h : ContainsTerm folding term text)
    (hx : isSpecial x = true) : term.toList.count x ≤ text.toList.count x := by
  have hstar : x ≠ '*' := by
    rintro rfl
    cases hx
  have hle := Occur.count_le h hx
  rwa [flatten_splitOn, List.count_filter (by simp [hstar])] at hle

namespace Pattern

/-! ## The pattern of a term -/

/-- What a character of a term is in its pattern. -/
def ofTermChar (c : Char) : Char := if c = '*' then '%' else c

theorem toList_likePattern (term : String) :
    (likePattern term).toList = '%' :: (term.toList.map ofTermChar ++ ['%']) := by
  simp [likePattern, ofTermChar]

theorem count_likePattern (term : String) :
    (likePattern term).toList.count '\\' = term.toList.count '\\' := by
  have hmap (cs : List Char) : (cs.map ofTermChar).count '\\' = cs.count '\\' := by
    induction cs with
    | nil => rfl
    | cons c cs ih =>
      by_cases hc : c = '*'
      · simp [hc, ofTermChar, ih]
      · simp [hc, ofTermChar, List.count_cons, ih]
  rw [toList_likePattern, List.count_cons_of_ne (by decide), List.count_append, hmap]
  rfl

/-- No pattern of a term breaks off. -/
theorem isSome_parts?_likePattern (term : String) : (parts? (likePattern term).toList).isSome := by
  rw [toList_likePattern, ← List.cons_append]
  exact isSome_parts?_append _

/-- The parts of a pattern from a character of its term on, where there is no backslash. -/
def termParts (cs : List Char) : List PatternPart := (cs.map ofTermChar ++ ['%']).map part

theorem termParts_cons {c : Char} (hc : c ≠ '*') :
    termParts (c :: cs) = part c :: termParts cs := by
  simp only [termParts, List.map_cons, List.cons_append, ofTermChar, if_neg hc]

theorem not_mem_likePattern {term : String} (h : '\\' ∉ term.toList) :
    '\\' ∉ (likePattern term).toList := by
  rwa [← List.count_eq_zero, count_likePattern, List.count_eq_zero]

theorem parts?_likePattern {term : String} (h : '\\' ∉ term.toList) :
    parts? (likePattern term).toList = some (.anyText :: termParts term.toList) := by
  rw [parts?_eq_map (not_mem_likePattern h), toList_likePattern]
  rfl

/-! ## What is found -/

/-- What holds the pieces of a term, the first of them at its start, is matched. -/
theorem matchesParts_termParts {piece found after : List Char} {pieces : List (List Char)}
    (hsplit : cs.splitOn '*' = piece :: pieces) (halike : folding.Alike piece found)
    (hafter : Occur folding pieces after) :
    matchesParts folding (termParts cs) (found ++ after) = true := by
  induction cs generalizing piece pieces found after with
  | nil => exact matchesParts_anyText.2 ⟨found ++ after, [], List.append_nil _, rfl⟩
  | cons c cs ih =>
    obtain ⟨next, later, hnext⟩ := List.exists_cons_of_ne_nil (List.splitOn_ne_nil '*' cs)
    rw [splitOn_cons, hnext] at hsplit
    split at hsplit
    · next hc =>
      obtain ⟨rfl, rfl⟩ := List.cons.inj hsplit
      obtain rfl : found = [] := List.map_eq_nil_iff.1 halike.symm
      obtain ⟨before, found, after, rfl, halike, hafter⟩ := hafter
      rw [hc]
      exact matchesParts_anyText.2 ⟨before, _, rfl, ih hnext halike hafter⟩
    · next hc =>
      obtain ⟨rfl, rfl⟩ := List.cons.inj hsplit
      obtain ⟨d, found, rfl, hd, hfound⟩ := List.map_eq_cons_iff.1 halike.symm
      have hrest := ih hnext hfound.symm hafter
      rw [termParts_cons hc, part]
      -- A character that stands for others stands for itself, too.
      split
      · exact matchesParts_anyText.2 ⟨[d], _, rfl, hrest⟩
      · split
        · exact hrest
        · exact Bool.and_eq_true_iff.2 ⟨beq_iff_eq.2 hd.symm, hrest⟩

/-- What is matched holds the pieces of the term, the first of them at its start, if each
    character of the term stands for itself. -/
theorem occur_of_matchesParts (hplain : ∀ c ∈ cs, isSpecial c = false)
    (h : matchesParts folding (termParts cs) text = true) :
    ∃ piece pieces found after, cs.splitOn '*' = piece :: pieces ∧ found ++ after = text ∧
      folding.Alike piece found ∧ Occur folding pieces after := by
  induction cs generalizing text with
  | nil => exact ⟨[], [], [], text, rfl, rfl, rfl, trivial⟩
  | cons c cs ih =>
    rw [List.forall_mem_cons] at hplain
    rw [splitOn_cons]
    split
    · next hc =>
      rw [hc] at h
      obtain ⟨before, rest, rfl, hrest⟩ := matchesParts_anyText.1 h
      obtain ⟨piece, pieces, found, after, hsplit, rfl, halike, hafter⟩ := ih hplain.2 hrest
      exact ⟨[], _, [], _, rfl, rfl, rfl, hsplit ▸ ⟨before, found, after, rfl, halike, hafter⟩⟩
    · next hc =>
      rw [termParts_cons hc, part_eq_literal hplain.1] at h
      cases text with
      | nil => cases h
      | cons d text =>
        obtain ⟨hd, hrest⟩ := Bool.and_eq_true_iff.1 h
        obtain ⟨piece, pieces, found, after, hsplit, rfl, halike, hafter⟩ := ih hplain.2 hrest
        refine ⟨c :: piece, pieces, d :: found, after, ?_, rfl, ?_, hafter⟩
        · rw [hsplit]
          rfl
        · exact congrArg₂ List.cons (beq_iff_eq.1 hd) halike

/-! ## The whole pattern -/

theorem ilike_likePattern {term : String} (h : '\\' ∉ term.toList) (text : String) :
    ilike folding (likePattern term) text = some true ↔ ∃ before rest,
      before ++ rest = text.toList ∧ matchesParts folding (termParts term.toList) rest = true := by
  rw [ilike, parts?_likePattern h, Option.map_some, Option.some_inj, matchesParts_anyText]

/-- Without a backslash in the term, no text is missed that contains it. -/
theorem ilike_of_contains {term text : String} (h : '\\' ∉ term.toList)
    (hcontains : ContainsTerm folding term text) :
    ilike folding (likePattern term) text = some true := by
  obtain ⟨piece, pieces, hsplit⟩ :=
    List.exists_cons_of_ne_nil (List.splitOn_ne_nil '*' term.toList)
  rw [ContainsTerm, hsplit] at hcontains
  obtain ⟨before, found, after, heq, halike, hafter⟩ := hcontains
  exact (ilike_likePattern h text).2
    ⟨before, found ++ after, heq, matchesParts_termParts hsplit halike hafter⟩

/-- Without special characters in the term, no other text is found. -/
theorem contains_of_ilike {term text : String} (hplain : PlainTerm term)
    (h : ilike folding (likePattern term) text = some true) : ContainsTerm folding term text := by
  obtain ⟨before, rest, heq, hrest⟩ := (ilike_likePattern hplain.not_mem text).1 h
  obtain ⟨piece, pieces, found, after, hsplit, rfl, halike, hafter⟩ :=
    occur_of_matchesParts hplain hrest
  rw [ContainsTerm, hsplit]
  exact ⟨before, found, after, heq, halike, hafter⟩

/-- A pattern asks for fewer of the special characters than its term has: backslashes, if
    there are any, and otherwise each that is there. -/
theorem count_shortest_lt {term : String} (h : ¬ PlainTerm term) :
    ∃ parts x, parts? (likePattern term).toList = some parts ∧ isSpecial x = true ∧
      (shortest parts).count x < term.toList.count x := by
  by_cases hbackslash : '\\' ∈ term.toList
  · obtain ⟨parts, hparts⟩ := Option.isSome_iff_exists.1 (isSome_parts?_likePattern term)
    have hle := count_shortest hparts
    have hpos := List.count_pos_iff.2 hbackslash
    rw [count_likePattern] at hle
    exact ⟨parts, '\\', hparts, rfl, by omega⟩
  · simp only [PlainTerm, not_forall, Bool.not_eq_false] at h
    obtain ⟨x, hx, hspecial⟩ := h
    have hpattern := not_mem_likePattern hbackslash
    refine ⟨_, x, parts?_eq_map hpattern, hspecial, ?_⟩
    rw [List.count_eq_zero.2 (not_mem_shortest hpattern hspecial)]
    exact List.count_pos_iff.2 hx

end Pattern

/-- The pattern of a term finds just the texts that contain the term exactly if no character
    of the term means something in a pattern. -/
theorem searches_likePattern (folding : CaseFolding) (term : String) :
    Searches folding (likePattern term) term where
  accepted text := by
    rw [ilike, Option.isSome_map]
    exact Pattern.isSome_parts?_likePattern term
  complete h _ := Pattern.ilike_of_contains h
  exact_iff := by
    constructor
    · intro hexact
      by_contra hplain
      obtain ⟨parts, x, hparts, hx, hlt⟩ := Pattern.count_shortest_lt hplain
      have hfound : ilike folding (likePattern term) (String.ofList (Pattern.shortest parts)) =
          some true := by
        rw [ilike, hparts, Option.map_some, String.toList_ofList]
        exact congrArg some (Pattern.matchesParts_shortest folding parts)
      have hle := ((hexact _).1 hfound).count_le hx
      rw [String.toList_ofList] at hle
      exact absurd hlt (Nat.not_lt.2 hle)
    · intro hplain text
      exact ⟨Pattern.contains_of_ilike hplain, Pattern.ilike_of_contains hplain.not_mem⟩

/-- For each term of an expression that is not empty, its pattern is bound. -/
theorem Condition.searches_of_term (folding : CaseFolding) (expression : String) (index i : Nat)
    (term : String)
    (hterm : ((searchTokens expression).filterMap SearchToken.term?)[i]? = some term) :
    ∃ condition pattern, Condition.ofTokens? (searchTokens expression) index = some condition ∧
      condition.binds[i]? = some pattern ∧ Searches folding pattern term := by
  cases hcondition : Condition.ofTokens? (searchTokens expression) index with
  | none =>
    have hnone : (searchTokens expression).filterMap SearchToken.term? = [] :=
      (terms_eq_nil hcondition : Asked.terms ⟨⟨"", ""⟩, searchTokens expression⟩ = [])
    rw [hnone] at hterm
    cases hterm
  | some condition =>
    have hbinds : condition.binds =
        (Asked.terms ⟨⟨"", ""⟩, searchTokens expression⟩).map likePattern := binds_eq hcondition
    refine ⟨condition, likePattern term, rfl, ?_, searches_likePattern folding term⟩
    rw [hbinds, Asked.terms, List.getElem?_map, hterm, Option.map_some]

theorem Condition.searches_of_term_lacking :
    ((searchTokens "k*rhu !=Wal").filterMap SearchToken.term?)[1]? = some "Wal" ∧
      ∃ condition pattern,
        Condition.ofTokens? (searchTokens "k*rhu !=Wal") 3 = some condition ∧
          condition.binds[1]? = some pattern ∧ Searches .ascii pattern "Wal" := by
  have hterm : ((searchTokens "k*rhu !=Wal").filterMap SearchToken.term?)[1]? = some "Wal" := by
    decide +kernel
  exact ⟨hterm, Condition.searches_of_term .ascii "k*rhu !=Wal" 3 1 "Wal" hterm⟩

/-- The term `50%` also finds `500`. -/
theorem Condition.not_exact_percent :
    ¬ ∀ (folding : CaseFolding) (expression : String) (index i : Nat) (term : String),
      ((searchTokens expression).filterMap SearchToken.term?)[i]? = some term →
        ∃ condition pattern,
          Condition.ofTokens? (searchTokens expression) index = some condition ∧
            condition.binds[i]? = some pattern ∧
            ∀ text, ilike folding pattern text = some true ↔ ContainsTerm folding term text := by
  intro h
  obtain ⟨condition, pattern, hcondition, hpattern, hexact⟩ :=
    h .ascii "50%" 1 0 "50%" (by decide +kernel)
  have hbound : (Condition.ofTokens? (searchTokens "50%") 1).bind (·.binds[0]?) =
      some "%50%%" := by decide +kernel
  rw [hcondition, Option.bind_some, hpattern] at hbound
  obtain rfl := Option.some.inj hbound
  have hcontains := (hexact "500").1 (by decide +kernel)
  exact absurd (hcontains.count_le (x := '%') rfl) (by decide)

end ShadowCatalog
