import Mathlib.Data.List.SplitBy
import ShadowCatalog.Proofs.Sql.Reading

/-!
# Tokens of a statement

A server takes the text of a statement apart into *tokens*: what is mentioned between
quotes or after a dollar sign, and the words and signs outside. A word is as long as
possible, and so is the sign of an operator; any other character that is not blank is a
sign of its own. What stands between quotes is one token whatever is in it.

The text is read in two steps. A reader of mentions (`SqlReader`) tells them from the
characters outside (`Sql.glyphs`), and these are put together into words and signs
(`SqlToken.ofGlyphs`). A statement is *delimited* if in this no fragment runs into the
next one. The tokens of its text are then those of its fragments, in order
(`Sql.Delimited.tokens_eq`), and it is spaced (`Sql.Delimited.spaced`).
-/

namespace ShadowCatalog

/-! ## Glyphs -/

/-- What a reader of a statement finds. -/
inductive Glyph
  /-- Something is mentioned. -/
  | mention (mention : Mention)
  /-- A character stands outside of quotes. -/
  | char (c : Char)
  deriving DecidableEq, Repr

namespace Sql

/-- What is found in a text, read from a place on. -/
def glyphsFrom (place : Place) : List Char → Option (List Glyph)
  | [] => (SqlReader.finish ⟨place, []⟩).map (List.map .mention)
  | c :: text =>
    (SqlReader.step ⟨place, []⟩ c).bind fun next =>
      (glyphsFrom next.place text).map fun glyphs =>
        next.mentions.map .mention ++ if next.place = .outside then .char c :: glyphs else glyphs

/-- What is found in a text. -/
def glyphs (text : List Char) : Option (List Glyph) := glyphsFrom .outside text

end Sql

/-! ## Words and signs -/

/-- A token of a statement. -/
inductive SqlToken
  /-- A name, a literal or a placeholder. -/
  | mention (mention : Mention)
  /-- A word or a sign. -/
  | word (text : String)
  deriving DecidableEq, Repr

/-- A character of a word. -/
def isWordChar (c : Char) : Bool := c.isAlphanum || c = '_'

/-- A character of the sign of an operator. -/
def isOperatorChar (c : Char) : Bool := c = '<' || c = '>' || c = '=' || c = ':'

namespace Glyph

/-- The glyph goes on with the word or sign that the one before it is in. -/
def continues : Glyph → Glyph → Bool
  | .char c, .char d => (isWordChar c && isWordChar d) || (isOperatorChar c && isOperatorChar d)
  | _, _ => false

/-- The character outside, if it is one. -/
def char? : Glyph → Option Char
  | .mention _ => none
  | .char c => some c

end Glyph

namespace SqlToken

/-- The token that glyphs make together, unless they are blank. -/
def ofRun? : List Glyph → Option SqlToken
  | [] => none
  | .mention m :: _ => some (.mention m)
  | .char c :: later =>
    if c.isWhitespace then none
    else some (.word (String.ofList (c :: later.filterMap Glyph.char?)))

/-- The tokens of what is found in a statement. -/
def ofGlyphs (glyphs : List Glyph) : List SqlToken :=
  (glyphs.splitBy Glyph.continues).filterMap ofRun?

end SqlToken

/-- The tokens of a text, if it ends outside of quotes. -/
def Sql.tokens? (text : List Char) : Option (List SqlToken) :=
  (Sql.glyphs text).map SqlToken.ofGlyphs

/-! ## The tokens of the fragments -/

namespace Fragment

/-- What is found in a fragment. -/
def glyphs : Fragment → List Glyph
  | .fixed text => text.toList.map .char
  | .name n => [.mention (.name n)]
  | .parameter index => [.mention (.placeholder index)]
  | .emptyText => [.mention (.literal "")]
  | .number value => (toString value).toList.map .char

/-- The tokens of a fragment. -/
def tokens (fragment : Fragment) : List SqlToken := SqlToken.ofGlyphs fragment.glyphs

@[simp] theorem tokens_name (n : String) : (name n).tokens = [.mention (.name n)] := rfl

@[simp] theorem tokens_parameter (index : Nat) :
    (parameter index).tokens = [.mention (.placeholder index)] := rfl

@[simp] theorem tokens_emptyText : emptyText.tokens = [.mention (.literal "")] := rfl

end Fragment

namespace Sql

variable (sql sql' : Sql)

/-- The tokens of a statement, by its fragments. -/
def tokens : List SqlToken := sql.flatMap Fragment.tokens

@[simp] theorem tokens_nil : tokens [] = [] := rfl

@[simp] theorem tokens_cons (fragment : Fragment) :
    tokens (fragment :: sql) = fragment.tokens ++ sql.tokens := rfl

@[simp] theorem tokens_append : tokens (sql ++ sql') = sql.tokens ++ sql'.tokens :=
  List.flatMap_append

theorem tokens_flatMap {α : Type} (part : α → Sql) (parts : List α) :
    tokens (parts.flatMap part) = parts.flatMap fun a => (part a).tokens :=
  List.flatMap_assoc

end Sql

/-! ## What is found in a spaced statement -/

namespace Sql

open SqlReader

/-- Characters that open nothing are found as they are. -/
theorem glyphsFrom_append_of_isIdle {text : List Char} (hidle : ∀ c ∈ text, isIdle c)
    (rest : List Char) :
    glyphsFrom .outside (text ++ rest) =
      (glyphsFrom .outside rest).map (text.map .char ++ ·) := by
  induction text with
  | nil => simp
  | cons c text ih =>
    rw [List.forall_mem_cons] at hidle
    have hstep : step ⟨.outside, []⟩ c = some ⟨.outside, []⟩ := by
      simp [step, finish, start_of_isIdle hidle.1]
    rw [List.cons_append, glyphsFrom, hstep, Option.bind_some, ih hidle.2]
    simp [Function.comp_def]

/-- A space after which nothing is open is found as it is. -/
theorem glyphsFrom_append_of_isSpace {text : String} (htext : IsSpace text) {place : Place}
    {mentions : List Mention} (hfinish : finish ⟨place, []⟩ = some mentions) (rest : List Char) :
    glyphsFrom place (text.toList ++ rest) =
      (glyphsFrom .outside rest).map
        (mentions.map .mention ++ text.toList.map .char ++ ·) := by
  obtain ⟨hidle, hfirst⟩ := htext
  cases hchars : text.toList with
  | nil => simp [hchars] at hfirst
  | cons c text =>
    rw [hchars, List.all_eq_true, List.forall_mem_cons] at hidle
    have hdigit : c.isDigit = false := by simpa [hchars] using hfirst
    rw [List.cons_append, glyphsFrom, step_of_finish hfinish hidle.1 hdigit, Option.bind_some,
      glyphsFrom_append_of_isIdle hidle.2]
    simp [Function.comp_def]

/-- A name whose quotes are doubled is read on. -/
theorem glyphsFrom_doubleQuotes_append (name reversed rest : List Char) :
    glyphsFrom (.within .double reversed) (doubleQuotes name ++ rest) =
      glyphsFrom (.within .double (name.reverse ++ reversed)) rest := by
  induction name generalizing reversed with
  | nil => rfl
  | cons c name ih =>
    by_cases hc : c = '"'
    · simp [doubleQuotes, hc, glyphsFrom, step, Quote.char, ih, Function.comp_def]
    · simp [doubleQuotes, hc, glyphsFrom, step, Quote.char, ih]

/-- Digits go on with the number that they follow. -/
theorem glyphsFrom_digits_append {digits : List Char} (hdigits : ∀ c ∈ digits, c.isDigit)
    (index : Nat) (rest : List Char) :
    glyphsFrom (.number index) (digits ++ rest) =
      glyphsFrom (.number (Nat.ofDigitChars 10 digits index)) rest := by
  induction digits generalizing index with
  | nil => rfl
  | cons c digits ih =>
    rw [List.forall_mem_cons] at hdigits
    simp [glyphsFrom, step, hdigits.1, ih hdigits.2, Nat.ofDigitChars_cons]

/-- Read from the outside, this is found in a text, and where the text ends the reader
    could stop. -/
def Finds (text : List Char) (found : List Glyph) : Prop :=
  ∃ place mentions before, finish ⟨place, []⟩ = some mentions ∧
    found = before ++ mentions.map .mention ∧
    ∀ rest, glyphsFrom .outside (text ++ rest) = (glyphsFrom place rest).map (before ++ ·)

namespace Finds

theorem nil : Finds [] [] := ⟨.outside, [], [], rfl, rfl, fun rest => by simp⟩

/-- A space between two texts keeps them apart. -/
theorem join {first second : List Char} {found found' : List Glyph} {text : String}
    (hfirst : Finds first found) (htext : IsSpace text) (hsecond : Finds second found') :
    Finds (first ++ (text.toList ++ second)) (found ++ (text.toList.map .char ++ found')) := by
  obtain ⟨place, mentions, before, hfinish, rfl, hread⟩ := hfirst
  obtain ⟨place', mentions', before', hfinish', rfl, hread'⟩ := hsecond
  refine ⟨place', mentions', before ++ mentions.map .mention ++ text.toList.map .char ++ before',
    hfinish', by simp, fun rest => ?_⟩
  rw [List.append_assoc, hread, List.append_assoc, glyphsFrom_append_of_isSpace htext hfinish,
    hread']
  simp [Function.comp_def]

/-- A fragment that is no fixed text is found by itself. -/
theorem chars {fragment : Fragment} (hfragment : ∀ text, fragment ≠ .fixed text) :
    Finds fragment.chars fragment.glyphs := by
  cases fragment with
  | fixed text => exact absurd rfl (hfragment text)
  | name n =>
    refine ⟨.closed .double n.toList.reverse, [.name n], [], ?_, rfl, fun rest => ?_⟩
    · simp [finish, Quote.mention]
    · simp [Fragment.chars, quotedName, glyphsFrom, step, start, finish,
        glyphsFrom_doubleQuotes_append, Quote.char]
  | parameter index =>
    have hdigits : ∀ c ∈ Nat.toDigits 10 index, c.isDigit := fun c hc =>
      Nat.isDigit_of_mem_toDigits (by decide) (by decide) hc
    have hindex := @Nat.ofDigitChars_ten_toDigits index
    have hchars : (Fragment.parameter index).chars = '$' :: Nat.toDigits 10 index := by
      rw [Fragment.chars, Nat.toString_eq_repr, Nat.toList_repr]
    refine ⟨.number index, [.placeholder index], [], rfl, rfl, fun rest => ?_⟩
    rw [hchars]
    cases htext : Nat.toDigits 10 index with
    | nil => exact absurd htext Nat.toDigits_ne_nil
    | cons c digits =>
      rw [htext, List.forall_mem_cons] at hdigits
      rw [htext, Nat.ofDigitChars_cons] at hindex
      simp [glyphsFrom, step, start, finish, Quote.char, hdigits.1, ← hindex,
        glyphsFrom_digits_append hdigits.2, Function.comp_def]
  | emptyText =>
    refine ⟨.closed .single [], [.literal ""], [], rfl, rfl, fun rest => ?_⟩
    simp [Fragment.chars, glyphsFrom, step, start, finish, Quote.char, Function.comp_def]
  | number value =>
    refine ⟨.outside, [], (toString value).toList.map .char, rfl, by simp [Fragment.glyphs],
      fun rest => ?_⟩
    exact glyphsFrom_append_of_isIdle (fun c hc => isIdle_of_mem_number hc) rest

end Finds

namespace Spaced

variable {sql : Sql}

theorem finds (hsql : Spaced sql) :
    Finds (sql.flatMap Fragment.chars) (sql.flatMap Fragment.glyphs) := by
  induction hsql with
  | nil => exact .nil
  | single hfragment => simpa using Finds.chars hfragment
  | join hbefore htext hafter ihbefore ihafter =>
    simpa [Fragment.chars, Fragment.glyphs] using ihbefore.join htext ihafter

/-- In the text of a spaced statement is found what is found in its fragments, in
    their order. -/
theorem glyphs_eq (hsql : Spaced sql) :
    Sql.glyphs sql.text.toList = some (sql.flatMap Fragment.glyphs) := by
  obtain ⟨place, mentions, before, hfinish, hfound, hread⟩ := hsql.finds
  have hread := hread []
  rw [List.append_nil, glyphsFrom, hfinish] at hread
  rw [Sql.glyphs, text, String.toList_ofList, hread, hfound]
  rfl

end Spaced

end Sql

/-! ## Fragments apart -/

/-- A character that is a sign of its own, or blank. -/
def isBreak (c : Char) : Bool := !isWordChar c && !isOperatorChar c

namespace Glyph

theorem continues_of_isBreak_left {c : Char} (hc : isBreak c) (glyph : Glyph) :
    (char c).continues glyph = false := by
  cases glyph <;> simp_all [continues, isBreak]

theorem continues_of_isBreak_right {c : Char} (hc : isBreak c) (glyph : Glyph) :
    glyph.continues (.char c) = false := by
  cases glyph <;> simp_all [continues, isBreak]

end Glyph

namespace Fragment

/-- One of two fragments is fixed text, and the second does not go on with a word or
    sign of the first. -/
structure Apart (fragment next : Fragment) : Prop where
  fixed : (∃ text, fragment = .fixed text) ∨ ∃ text, next = .fixed text
  continues : ∀ a ∈ fragment.glyphs.getLast?, ∀ b ∈ next.glyphs.head?, a.continues b = false

/-- A fragment that is mentioned. -/
def isMention : Fragment → Bool
  | .name _ => true
  | .parameter _ => true
  | .emptyText => true
  | _ => false

/-- Nothing goes on with what is mentioned. -/
theorem apart_fixed_of_isMention {fragment : Fragment} (hfragment : fragment.isMention)
    (text : String) : fragment.Apart (.fixed text) := by
  refine ⟨.inr ⟨text, rfl⟩, fun a ha b _ => ?_⟩
  cases fragment <;> cases hfragment <;> cases ha <;> rfl

end Fragment

namespace Sql

/-- This text does not go on with what comes before it. -/
def Begins (text : String) : Prop := text.toList.head?.any isBreak

/-- This text is not gone on with. -/
def Ends (text : String) : Prop := text.toList.getLast?.any isBreak

instance : DecidablePred Begins := fun text =>
  inferInstanceAs (Decidable (text.toList.head?.any isBreak))

instance : DecidablePred Ends := fun text =>
  inferInstanceAs (Decidable (text.toList.getLast?.any isBreak))

theorem Begins.apart {text : String} (htext : Begins text) (fragment : Fragment) :
    fragment.Apart (.fixed text) := by
  refine ⟨.inr ⟨text, rfl⟩, fun a _ b hb => ?_⟩
  obtain ⟨c, hc, rfl⟩ : ∃ c, text.toList.head? = some c ∧ Glyph.char c = b := by
    simpa [Fragment.glyphs] using hb
  rw [Begins, hc] at htext
  exact Glyph.continues_of_isBreak_right htext a

theorem Ends.apart {text : String} (htext : Ends text) (next : Fragment) :
    (Fragment.fixed text).Apart next := by
  refine ⟨.inl ⟨text, rfl⟩, fun a ha b _ => ?_⟩
  obtain ⟨c, hc, rfl⟩ : ∃ c, text.toList.getLast? = some c ∧ Glyph.char c = a := by
    simpa [Fragment.glyphs, List.getLast?_map] using ha
  rw [Ends, hc] at htext
  exact Glyph.continues_of_isBreak_left htext b

/-! ## Delimited statements -/

/-- If the fragment is fixed text, it is a space. -/
def IsSpaced : Fragment → Prop
  | .fixed text => IsSpace text
  | _ => True

instance : DecidablePred IsSpaced
  | .fixed text => inferInstanceAs (Decidable (IsSpace text))
  | .name _ | .parameter _ | .emptyText | .number _ => .isTrue trivial

theorem IsSpaced.glyphs_ne_nil {fragment : Fragment} (h : IsSpaced fragment) :
    fragment.glyphs ≠ [] := by
  cases fragment with
  | fixed text =>
    intro hnil
    have hspace : IsSpace text := h
    simp [IsSpace, List.map_eq_nil_iff.1 hnil] at hspace
  | number value => cases value <;> simp [Fragment.glyphs, Int.toString_eq_repr, Int.repr]
  | _ => simp [Fragment.glyphs]

/-- A statement whose fragments are all allowed, and none of which runs into the next
    one. -/
structure Delimited (Allowed : Fragment → Prop) (sql : Sql) : Prop where
  allowed : ∀ fragment ∈ sql, Allowed fragment
  apart : sql.IsChain Fragment.Apart

namespace Delimited

variable {Allowed Other : Fragment → Prop} {sql before after : Sql} {text : String}

theorem mono (h : Delimited Allowed sql) (himp : ∀ fragment, Allowed fragment → Other fragment) :
    Delimited Other sql :=
  ⟨fun fragment hmem => himp fragment (h.allowed fragment hmem), h.apart⟩

theorem nil : Delimited Allowed [] := ⟨nofun, .nil⟩

theorem single {fragment : Fragment} (hfragment : Allowed fragment) :
    Delimited Allowed [fragment] :=
  ⟨by simpa using hfragment, .singleton _⟩

theorem append (hbefore : Delimited Allowed before) (hafter : Delimited Allowed after)
    (hapart : ∀ a ∈ before.getLast?, ∀ b ∈ after.head?, a.Apart b) :
    Delimited Allowed (before ++ after) :=
  ⟨fun _ hmem => (List.mem_append.1 hmem).elim (hbefore.allowed _) (hafter.allowed _),
    List.isChain_append.2 ⟨hbefore.apart, hafter.apart, hapart⟩⟩

/-- Fixed text before a statement. -/
theorem cons (htext : Allowed (.fixed text) ∧ Ends text) (h : Delimited Allowed sql) :
    Delimited Allowed (.fixed text :: sql) := by
  refine append (single htext.1) h ?_
  rintro a ha b -
  obtain rfl : .fixed text = a := by simpa using ha
  exact htext.2.apart b

/-- Fixed text between two statements. -/
theorem join (hbefore : Delimited Allowed before)
    (htext : Allowed (.fixed text) ∧ Begins text ∧ Ends text)
    (hafter : Delimited Allowed after) : Delimited Allowed (before ++ .fixed text :: after) := by
  refine append hbefore (cons ⟨htext.1, htext.2.2⟩ hafter) ?_
  rintro a - b hb
  obtain rfl : .fixed text = b := by simpa using hb
  exact htext.2.1.apart a

/-- Fixed text after a statement. -/
theorem concat (h : Delimited Allowed sql) (htext : Allowed (.fixed text) ∧ Begins text) :
    Delimited Allowed (sql ++ [.fixed text]) := by
  refine append h (single htext.1) ?_
  rintro a - b hb
  obtain rfl : .fixed text = b := by simpa using hb
  exact htext.2.apart a

/-- Statements, separated by fixed text. -/
theorem separated {separator : String}
    (hseparator : Allowed (.fixed separator) ∧ Begins separator ∧ Ends separator)
    {parts : List Sql}
    (hparts : ∀ part ∈ parts, Delimited Allowed part) :
    Delimited Allowed (Sql.separated separator parts) := by
  fun_induction Sql.separated separator parts with
  | case1 => exact .nil
  | case2 part => exact hparts part (by simp)
  | case3 part parts hne ih =>
    rw [List.forall_mem_cons] at hparts
    exact .join hparts.1 hseparator (ih hparts.2)

/-- More statements after a statement, each one after fixed text. -/
theorem append_flatMap {α : Type} {space : α → String} {part : α → Sql}
    (h : Delimited Allowed sql) {parts : List α}
    (hspace : ∀ a ∈ parts, Allowed (.fixed (space a)) ∧ Begins (space a) ∧ Ends (space a))
    (hparts : ∀ a ∈ parts, Delimited Allowed (part a)) :
    Delimited Allowed (sql ++ parts.flatMap fun a => .fixed (space a) :: part a) := by
  induction parts generalizing sql with
  | nil => simpa using h
  | cons a parts ih =>
    rw [List.forall_mem_cons] at hspace hparts
    have hfirst : Delimited Allowed (sql ++ .fixed (space a) :: part a) :=
      .join h hspace.1 hparts.1
    simpa using ih hfirst hspace.2 hparts.2

/-- A delimited statement is spaced. -/
theorem spaced (h : Delimited IsSpaced sql) : Spaced sql := by
  -- By induction, also with one more fragment in front that is no fixed text.
  suffices hboth : Spaced sql ∧ ∀ fragment, (∀ text, fragment ≠ .fixed text) →
      (∀ next ∈ sql.head?, fragment.Apart next) → Spaced (fragment :: sql) from hboth.1
  obtain ⟨hallowed, hapart⟩ := h
  induction sql with
  | nil => exact ⟨.nil, fun fragment hfragment _ => .single hfragment⟩
  | cons next sql ih =>
    rw [List.isChain_cons] at hapart
    rw [List.forall_mem_cons] at hallowed
    obtain ⟨hsql, hcons⟩ := ih hallowed.2 hapart.2
    refine ⟨?_, fun fragment hfragment hnext => ?_⟩
    · by_cases hfixed : ∃ text, next = .fixed text
      · obtain ⟨text, rfl⟩ := hfixed
        exact .cons hallowed.1 hsql
      · exact hcons next (not_exists.1 hfixed) hapart.1
    · obtain ⟨text, htext⟩ | ⟨text, rfl⟩ := (hnext next rfl).fixed
      · exact absurd htext (hfragment text)
      · exact .join (.single hfragment) hallowed.1 hsql

theorem ofGlyphs_eq (h : Delimited IsSpaced sql) :
    SqlToken.ofGlyphs (sql.flatMap Fragment.glyphs) = sql.tokens := by
  obtain ⟨hallowed, hapart⟩ := h
  induction sql with
  | nil => rfl
  | cons fragment sql ih =>
    rw [List.forall_mem_cons] at hallowed
    have hcontinues : ∀ a ∈ fragment.glyphs.getLast?,
        ∀ b ∈ (sql.flatMap Fragment.glyphs).head?, a.continues b = false := by
      cases sql with
      | nil => simp
      | cons next sql =>
        obtain ⟨first, later, hnext⟩ := List.exists_cons_of_ne_nil
          (hallowed.2 next List.mem_cons_self).glyphs_ne_nil
        simpa [hnext] using (List.isChain_cons_cons.1 hapart).1.continues
    rw [List.flatMap_cons, SqlToken.ofGlyphs, List.splitBy_append hcontinues,
      List.filterMap_append, tokens_cons, ← ih hallowed.2 hapart.tail]
    rfl

/-- The tokens of the text of a delimited statement are those of its fragments, in their
    order. -/
theorem tokens_eq (h : Delimited IsSpaced sql) : tokens? sql.text.toList = some sql.tokens := by
  rw [tokens?, h.spaced.glyphs_eq, Option.map_some, h.ofGlyphs_eq]

end Delimited

end Sql

end ShadowCatalog
