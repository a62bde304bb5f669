import Mathlib.Data.List.Infix
import Mathlib.Tactic.Common

/-!
# What a pattern matches

The rules by which the database compares a text with a pattern: `%` stands for any text,
`_` for any one character, a backslash makes the next character stand for itself, and any
other character does so anyway. Letter case is ignored. Which letters are the same but for
their case is not for a pattern to say; all that is asked is that the characters that mean
something in a pattern are no letters (`CaseFolding`).

A pattern that breaks off after a backslash is refused (`ilike` gives nothing). Each other
pattern matches the text that is left of it when nothing is put for `%`
(`Pattern.matchesParts_shortest`). This text shows what a pattern does not ask for: it has
at most half the backslashes of the pattern (`Pattern.count_shortest`), and where there are
none, it has no special characters at all (`Pattern.not_mem_shortest`).
-/

namespace ShadowCatalog

/-- The characters that mean something in a pattern. -/
def isSpecial (c : Char) : Bool := c == '%' || c == '_' || c == '\\'

/-- Characters that are the same but for letter case are folded into one. The special
    characters stay apart from all others. -/
structure CaseFolding where
  fold : Char → Char
  apart : ∀ c d, isSpecial c = true → fold c = fold d → c = d

/-- No letter becomes a special character when `A` to `Z` are put in lower case. -/
theorem eq_of_isSpecial_toLower {c d : Char} (hc : isSpecial c = true)
    (h : c.toLower = d.toLower) : c = d := by
  have hself : c.toLower = c ∧ c.toNat < 97 := by
    simp only [isSpecial, Bool.or_eq_true, beq_iff_eq] at hc
    rcases hc with (rfl | rfl) | rfl <;> decide
  rw [hself.1] at h
  unfold Char.toLower at h
  split at h
  · next hupper =>
    -- A letter in lower case comes after the special characters.
    have hlow : 65 ≤ d.toNat := UInt32.le_iff_toNat_le.1 hupper.1
    have hhigh : d.toNat ≤ 90 := UInt32.le_iff_toNat_le.1 hupper.2
    have hsum : c.toNat = (d.toNat + 32) % 4294967296 := by
      rw [h]
      exact UInt32.toNat_add d.val 32
    omega
  · exact h

/-- The letters `A` to `Z` are folded into `a` to `z`. -/
def CaseFolding.ascii : CaseFolding where
  fold := Char.toLower
  apart _ _ := eq_of_isSpecial_toLower

/-- Two texts are the same but for letter case. -/
def CaseFolding.Alike (folding : CaseFolding) (a b : List Char) : Prop :=
  a.map folding.fold = b.map folding.fold

/-- A part of a pattern. -/
inductive PatternPart
  | anyText
  | anyChar
  | literal (c : Char)
  deriving DecidableEq, Repr

namespace Pattern

/-- What a character stands for. -/
def part (c : Char) : PatternPart :=
  if c = '%' then .anyText else if c = '_' then .anyChar else .literal c

theorem part_eq_literal {c : Char} (h : isSpecial c = false) : part c = .literal c := by
  simp_all [isSpecial, part]

/-- The parts of a pattern, unless it breaks off after a backslash. -/
def parts? : List Char → Option (List PatternPart)
  | [] => some []
  | c :: cs =>
    if c = '\\' then
      match cs with
      | [] => none
      | d :: ds => (parts? ds).map (.literal d :: ·)
    else (parts? cs).map (part c :: ·)

/-- A text is made up of what the parts stand for. -/
def matchesParts (folding : CaseFolding) : List PatternPart → List Char → Bool
  | [], text => text.isEmpty
  | .anyText :: parts, text => text.tails.any (matchesParts folding parts)
  | .anyChar :: _, [] => false
  | .anyChar :: parts, _ :: text => matchesParts folding parts text
  | .literal _ :: _, [] => false
  | .literal c :: parts, d :: text =>
    folding.fold c == folding.fold d && matchesParts folding parts text

/-- The text that is left of a pattern when nothing is put for any text. -/
def shortest (parts : List PatternPart) : List Char :=
  parts.filterMap fun
    | .anyText => none
    | .anyChar => some 'a'
    | .literal c => some c

end Pattern

/-- A text matches a pattern, unless the pattern is refused. -/
def ilike (folding : CaseFolding) (pattern text : String) : Option Bool :=
  (Pattern.parts? pattern.toList).map fun parts => Pattern.matchesParts folding parts text.toList

namespace Pattern

variable {folding : CaseFolding} {parts : List PatternPart} {cs text : List Char} {c d : Char}

theorem matchesParts_anyText :
    matchesParts folding (.anyText :: parts) text = true ↔
      ∃ before rest, before ++ rest = text ∧ matchesParts folding parts rest = true := by
  simp only [matchesParts, List.any_eq_true, List.mem_tails]
  constructor
  · rintro ⟨rest, ⟨before, heq⟩, hrest⟩
    exact ⟨before, rest, heq, hrest⟩
  · rintro ⟨before, rest, heq, hrest⟩
    exact ⟨rest, ⟨before, heq⟩, hrest⟩

/-- Each pattern matches the shortest text. -/
theorem matchesParts_shortest (folding : CaseFolding) (parts : List PatternPart) :
    matchesParts folding parts (shortest parts) = true := by
  induction parts with
  | nil => rfl
  | cons part parts ih =>
    cases part with
    | anyText => exact matchesParts_anyText.2 ⟨[], _, rfl, ih⟩
    | anyChar => exact ih
    | literal c => exact Bool.and_eq_true_iff.2 ⟨beq_self_eq_true _, ih⟩

/-! ## Backslashes -/

theorem parts?_cons (hc : c ≠ '\\') : parts? (c :: cs) = (parts? cs).map (part c :: ·) := by
  rw [parts?.eq_def]
  exact if_neg hc

theorem parts?_escape : parts? ('\\' :: d :: cs) = (parts? cs).map (.literal d :: ·) := by
  rw [parts?.eq_def]
  exact if_pos rfl

/-- Where there is no backslash, each character is a part. -/
theorem parts?_eq_map (h : '\\' ∉ cs) : parts? cs = some (cs.map part) := by
  induction cs with
  | nil => rfl
  | cons c cs ih =>
    rw [List.mem_cons, not_or] at h
    rw [parts?_cons (Ne.symm h.1), ih h.2]
    rfl

/-- A pattern that ends in `%` is not refused: it does not break off. -/
theorem isSome_parts?_append (cs : List Char) : (parts? (cs ++ ['%'])).isSome := by
  fun_induction parts? cs with
  | case1 => rfl
  | case2 => rfl
  | case3 d ds ih =>
    rw [List.cons_append, List.cons_append, parts?_escape, Option.isSome_map]
    exact ih
  | case4 c cs hc ih =>
    rw [List.cons_append, parts?_cons hc, Option.isSome_map]
    exact ih

theorem shortest_cons (c : Char) (parts : List PatternPart) :
    shortest (part c :: parts) = shortest [part c] ++ shortest parts :=
  List.filterMap_append (l := [part c])

/-- A character that stands for others is not in the shortest text. -/
theorem not_mem_shortest_part (hc : isSpecial c = true) (hd : d ≠ '\\') :
    c ∉ shortest [part d] := by
  simp only [part]
  split
  · exact List.not_mem_nil
  · split
    · intro hmem
      obtain rfl := List.mem_singleton.1 hmem
      simp [isSpecial] at hc
    · intro hmem
      obtain rfl := List.mem_singleton.1 hmem
      simp_all [isSpecial]

/-- Where there is no backslash, the shortest text has no special characters. -/
theorem not_mem_shortest (h : '\\' ∉ cs) (hc : isSpecial c = true) :
    c ∉ shortest (cs.map part) := by
  induction cs with
  | nil => exact List.not_mem_nil
  | cons d cs ih =>
    rw [List.mem_cons, not_or] at h
    rw [List.map_cons, shortest_cons, List.mem_append, not_or]
    exact ⟨not_mem_shortest_part hc (Ne.symm h.1), ih h.2⟩

/-- Of two backslashes in a row, the shortest text has one, and of a single one, none. -/
theorem count_shortest (h : parts? cs = some parts) :
    2 * (shortest parts).count '\\' ≤ cs.count '\\' := by
  fun_induction parts? cs generalizing parts with
  | case1 =>
    cases h
    exact Nat.le_refl 0
  | case2 => cases h
  | case3 d ds ih =>
    obtain ⟨rest, hrest, rfl⟩ := Option.map_eq_some_iff.1 h
    have hle := ih hrest
    have hd : (shortest (.literal d :: rest)).count '\\' =
        (d :: shortest rest).count '\\' := rfl
    rw [hd, List.count_cons_self, List.count_cons, List.count_cons]
    split <;> omega
  | case4 c cs hc ih =>
    obtain ⟨rest, hrest, rfl⟩ := Option.map_eq_some_iff.1 h
    have hnone : (shortest [part c]).count '\\' = 0 :=
      List.count_eq_zero.2 (not_mem_shortest_part rfl hc)
    rw [shortest_cons, List.count_append, hnone, Nat.zero_add,
      List.count_cons_of_ne hc]
    exact ih hrest

end Pattern

end ShadowCatalog
