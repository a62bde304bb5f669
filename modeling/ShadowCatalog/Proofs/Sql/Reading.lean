import ShadowCatalog.Sql.Fragment

/-!
# Reading a statement

The text of a statement is read as a server reads it, from left to right and
with no knowledge of the fragments it was made of. A double quote opens a name
and a single quote a literal; it goes on until the quote occurs again, except
that two of them in a row are one character of it. Outside of quotes, a dollar
sign is followed by the digits of a placeholder. What is *mentioned* in this way
is all that a name could forge.

The text of a statement mentions what its fragments mention, in their order
(`Sql.Spaced.read_eq`), if no two of them touch that could run into each
other: a name after a name would go on with it, and so would a number after a
parameter. In a *spaced* statement some fixed text stands in between, which
neither opens anything nor begins with a digit.
-/

namespace ShadowCatalog

/-- What the text of a statement mentions. -/
inductive Mention
  /-- What stands between double quotes. -/
  | name (name : String)
  /-- What stands between single quotes. -/
  | literal (text : String)
  /-- The place of a bound value. -/
  | placeholder (index : Nat)
  deriving DecidableEq, Repr

namespace Mention

/-- The name, if one is mentioned. -/
@[simp] def name? : Mention → Option String
  | .name n => some n
  | _ => none

/-- The number of the placeholder, if one is mentioned. -/
@[simp] def placeholder? : Mention → Option Nat
  | .placeholder index => some index
  | _ => none

end Mention

/-- The kinds of quotes. -/
inductive Quote
  | double
  | single
  deriving DecidableEq, Repr

namespace Quote

/-- The quote itself. -/
def char : Quote → Char
  | .double => '"'
  | .single => '\''

/-- What is mentioned between two quotes, read last character first. -/
def mention (quote : Quote) (reversed : List Char) : Mention :=
  match quote with
  | .double => .name (String.ofList reversed.reverse)
  | .single => .literal (String.ofList reversed.reverse)

end Quote

/-- Where in a statement a reader is. -/
inductive Place
  /-- Outside of everything. -/
  | outside
  /-- After a dollar sign. -/
  | dollar
  /-- After a dollar sign and the digits of a number. -/
  | number (index : Nat)
  /-- Between quotes, after some characters, the last one first. -/
  | within (quote : Quote) (reversed : List Char)
  /-- After a quote that closes, unless the next character repeats it. -/
  | closed (quote : Quote) (reversed : List Char)
  deriving DecidableEq, Repr

/-- A reader of a statement: where it is, and what was mentioned before. -/
structure SqlReader where
  place : Place
  mentions : List Mention
  deriving DecidableEq, Repr

namespace SqlReader

/-- What is mentioned in a text that ends here. A text cannot end between quotes
    or after a bare dollar sign. -/
def finish (reader : SqlReader) : Option (List Mention) :=
  match reader.place with
  | .outside => some reader.mentions
  | .dollar => none
  | .number index => some (reader.mentions ++ [.placeholder index])
  | .within _ _ => none
  | .closed quote reversed => some (reader.mentions ++ [quote.mention reversed])

/-- The reader after a character that does not go on with what came before. -/
def start (c : Char) (mentions : List Mention) : SqlReader where
  place :=
    if c = Quote.double.char then .within .double []
    else if c = Quote.single.char then .within .single []
    else if c = '$' then .dollar
    else .outside
  mentions

/-- The reader after one more character. -/
def step (reader : SqlReader) (c : Char) : Option SqlReader :=
  match reader.place with
  | .outside => reader.finish.map (start c)
  | .dollar =>
    if c.isDigit then some { reader with place := .number (c.toNat - '0'.toNat) } else none
  | .number index =>
    if c.isDigit then some { reader with place := .number (10 * index + (c.toNat - '0'.toNat)) }
    else reader.finish.map (start c)
  | .within quote reversed =>
    if c = quote.char then some { reader with place := .closed quote reversed }
    else some { reader with place := .within quote (c :: reversed) }
  | .closed quote reversed =>
    if c = quote.char then some { reader with place := .within quote (c :: reversed) }
    else reader.finish.map (start c)

end SqlReader

namespace Sql

/-- What a statement mentions, by its text, if the text ends outside of quotes. -/
def read (text : List Char) : Option (List Mention) :=
  (text.foldlM SqlReader.step ⟨.outside, []⟩).bind SqlReader.finish

end Sql

/-! ## What the fragments mention -/

/-- What a fragment mentions, if anything. -/
@[simp] def Fragment.mention? : Fragment → Option Mention
  | .name n => some (.name n)
  | .emptyText => some (.literal "")
  | .parameter index => some (.placeholder index)
  | .fixed _ => none
  | .number _ => none

namespace Sql

variable (sql sql' : Sql)

/-- What a statement mentions, by its fragments. -/
def mentions : List Mention := sql.filterMap Fragment.mention?

/-- The names in a statement. -/
def names : List String := sql.mentions.filterMap Mention.name?

/-- The numbers of the parameters in a statement. -/
def placeholders : List Nat := sql.mentions.filterMap Mention.placeholder?

@[simp] theorem mentions_nil : mentions [] = [] := rfl

@[simp] theorem mentions_cons (fragment : Fragment) :
    mentions (fragment :: sql) = fragment.mention?.toList ++ sql.mentions := by
  cases fragment <;> rfl

@[simp] theorem mentions_append : mentions (sql ++ sql') = sql.mentions ++ sql'.mentions :=
  List.filterMap_append

@[simp] theorem names_nil : names [] = [] := rfl

@[simp] theorem names_cons (fragment : Fragment) :
    names (fragment :: sql) = (fragment.mention?.bind Mention.name?).toList ++ sql.names := by
  cases fragment <;> rfl

@[simp] theorem names_append : names (sql ++ sql') = sql.names ++ sql'.names := by
  simp [names]

@[simp] theorem placeholders_nil : placeholders [] = [] := rfl

@[simp] theorem placeholders_cons (fragment : Fragment) :
    placeholders (fragment :: sql) =
      (fragment.mention?.bind Mention.placeholder?).toList ++ sql.placeholders := by
  cases fragment <;> rfl

@[simp] theorem placeholders_append :
    placeholders (sql ++ sql') = sql.placeholders ++ sql'.placeholders := by
  simp [placeholders]

variable {sql} in
/-- The only literal in a statement is the empty one. -/
theorem eq_empty_of_literal_mem_mentions {text : String} (hmem : .literal text ∈ sql.mentions) :
    text = "" := by
  obtain ⟨fragment, -, hfragment⟩ := List.mem_filterMap.mp hmem
  cases fragment <;> simp_all [Fragment.mention?]

end Sql

/-! ## The text of a fragment, read -/

namespace SqlReader

/-- A character that opens nothing. -/
def isIdle (c : Char) : Bool := c ≠ Quote.double.char && c ≠ Quote.single.char && c ≠ '$'

theorem start_of_isIdle {c : Char} (hc : isIdle c) (mentions : List Mention) :
    start c mentions = ⟨.outside, mentions⟩ := by
  simp_all [isIdle, start]

theorem ne_quote_of_isIdle {c : Char} (hc : isIdle c) (quote : Quote) : c ≠ quote.char := by
  cases quote <;> simp_all [isIdle]

/-- Idle characters leave a reader outside. -/
theorem foldlM_step_of_isIdle {text : List Char} (hidle : ∀ c ∈ text, isIdle c)
    (mentions : List Mention) :
    text.foldlM step ⟨.outside, mentions⟩ = some ⟨.outside, mentions⟩ := by
  induction text with
  | nil => rfl
  | cons c text ih =>
    rw [List.forall_mem_cons] at hidle
    rw [List.foldlM_cons]
    simpa [step, finish, start_of_isIdle hidle.1] using ih hidle.2

/-- A reader that could stop before an idle character that is no digit is outside
    after it. -/
theorem step_of_finish {reader : SqlReader} {mentions : List Mention}
    (hfinish : reader.finish = some mentions) {c : Char} (hc : isIdle c)
    (hdigit : c.isDigit = false) : reader.step c = some ⟨.outside, mentions⟩ := by
  have hstart : reader.finish.map (start c) = some ⟨.outside, mentions⟩ := by
    rw [hfinish, Option.map_some, start_of_isIdle hc]
  obtain ⟨place, before⟩ := reader
  cases place with
  | outside => exact hstart
  | dollar => simp [finish] at hfinish
  | number index => simpa [step, hdigit] using hstart
  | within quote reversed => simp [finish] at hfinish
  | closed quote reversed => simpa [step, ne_quote_of_isIdle hc quote] using hstart

/-- A name whose quotes are doubled is read as it is. -/
theorem foldlM_step_doubleQuotes (name reversed : List Char) (mentions : List Mention) :
    (doubleQuotes name).foldlM step ⟨.within .double reversed, mentions⟩ =
      some ⟨.within .double (name.reverse ++ reversed), mentions⟩ := by
  induction name generalizing reversed with
  | nil => rfl
  | cons c name ih =>
    by_cases hc : c = '"'
    · simp [doubleQuotes, hc, List.foldlM_cons, step, Quote.char, ih]
    · simp [doubleQuotes, hc, List.foldlM_cons, step, Quote.char, ih]

/-- A name between its quotes is mentioned. -/
theorem foldlM_step_quotedName (name : String) (mentions : List Mention) :
    (quotedName name).foldlM step ⟨.outside, mentions⟩ =
      some ⟨.closed .double name.toList.reverse, mentions⟩ := by
  have hopen : step ⟨.outside, mentions⟩ '"' = some ⟨.within .double [], mentions⟩ := rfl
  have hclose : step ⟨.within .double (name.toList.reverse ++ []), mentions⟩ '"' =
      some ⟨.closed .double name.toList.reverse, mentions⟩ := by
    simp [step, Quote.char]
  simp only [quotedName, List.foldlM_cons, List.foldlM_append, List.foldlM_nil, hopen, hclose,
    foldlM_step_doubleQuotes, Option.bind_eq_bind, Option.bind_some, bind_pure]

/-- Digits go on with the number that they follow. -/
theorem foldlM_step_digits {digits : List Char} (hdigits : ∀ c ∈ digits, c.isDigit) (index : Nat)
    (mentions : List Mention) :
    digits.foldlM step ⟨.number index, mentions⟩ =
      some ⟨.number (Nat.ofDigitChars 10 digits index), mentions⟩ := by
  induction digits generalizing index with
  | nil => rfl
  | cons c digits ih =>
    rw [List.forall_mem_cons] at hdigits
    simp [List.foldlM_cons, step, hdigits.1, ih hdigits.2, Nat.ofDigitChars_cons]

/-- A dollar sign and a number in digits are the placeholder of that number. -/
theorem foldlM_step_parameter (index : Nat) (mentions : List Mention) :
    (Fragment.parameter index).chars.foldlM step ⟨.outside, mentions⟩ =
      some ⟨.number index, mentions⟩ := by
  have hdigits : ∀ c ∈ Nat.toDigits 10 index, c.isDigit := fun c hc =>
    Nat.isDigit_of_mem_toDigits (by decide) (by decide) hc
  have hindex := @Nat.ofDigitChars_ten_toDigits index
  have hchars : (Fragment.parameter index).chars = '$' :: Nat.toDigits 10 index := by
    rw [Fragment.chars, Nat.toString_eq_repr, Nat.toList_repr]
  have hdollar : step ⟨.outside, mentions⟩ '$' = some ⟨.dollar, mentions⟩ := rfl
  rw [hchars, List.foldlM_cons, hdollar]
  cases htext : Nat.toDigits 10 index with
  | nil => exact absurd htext Nat.toDigits_ne_nil
  | cons c digits =>
    rw [htext, List.forall_mem_cons] at hdigits
    rw [htext, Nat.ofDigitChars_cons] at hindex
    simp [List.foldlM_cons, step, hdigits.1, foldlM_step_digits hdigits.2, ← hindex]

theorem isIdle_of_isDigit {c : Char} (hc : c.isDigit) : isIdle c := by
  have hne {d : Char} (hd : d.isDigit = false) : c ≠ d := by
    rintro rfl
    simp [hc] at hd
  simp only [isIdle, Bool.and_eq_true, decide_eq_true_eq]
  exact ⟨⟨hne (by decide), hne (by decide)⟩, hne (by decide)⟩

/-- The characters of a number are idle. -/
theorem isIdle_of_mem_number {value : Int} {c : Char} (hc : c ∈ (Fragment.number value).chars) :
    isIdle c := by
  have hdigit {n : Nat} (hmem : c ∈ Nat.toDigits 10 n) : isIdle c :=
    isIdle_of_isDigit (Nat.isDigit_of_mem_toDigits (by decide) (by decide) hmem)
  cases value with
  | ofNat n => exact hdigit (by simpa [Fragment.chars, Int.repr] using hc)
  | negSucc n =>
    have hc : c = '-' ∨ c ∈ Nat.toDigits 10 (n + 1) := by
      simpa [Fragment.chars, Int.toString_eq_repr, Int.repr] using hc
    obtain rfl | hc := hc
    · decide
    · exact hdigit hc

/-- Read from the outside, a fragment that is no fixed text mentions what it
    mentions. -/
theorem finish_foldlM_step_chars {fragment : Fragment} (hfragment : ∀ text, fragment ≠ .fixed text)
    (before : List Mention) :
    (fragment.chars.foldlM step ⟨.outside, before⟩).bind finish =
      some (before ++ fragment.mention?.toList) := by
  cases fragment with
  | fixed text => exact absurd rfl (hfragment text)
  | name n =>
    rw [Fragment.chars, foldlM_step_quotedName]
    simp [finish, Quote.mention]
  | parameter index =>
    rw [foldlM_step_parameter]
    simp [finish]
  | emptyText => rfl
  | number value =>
    rw [foldlM_step_of_isIdle fun c hc => isIdle_of_mem_number hc]
    simp [finish]

end SqlReader

/-! ## Spaced statements -/

namespace Sql

open SqlReader

/-- A text that opens nothing and does not begin with a digit. -/
def IsSpace (text : String) : Prop :=
  text.toList.all isIdle ∧ text.toList.head?.any (!·.isDigit)

instance : DecidablePred IsSpace := fun text =>
  inferInstanceAs (Decidable (text.toList.all isIdle ∧ text.toList.head?.any (!·.isDigit)))

/-- A reader that could stop before a space is outside after it. -/
theorem IsSpace.foldlM_step {text : String} (htext : IsSpace text) {reader : SqlReader}
    {mentions : List Mention} (hfinish : reader.finish = some mentions) :
    text.toList.foldlM step reader = some ⟨.outside, mentions⟩ := by
  obtain ⟨hidle, hfirst⟩ := htext
  cases hchars : text.toList with
  | nil => simp [hchars] at hfirst
  | cons c rest =>
    rw [hchars, List.all_eq_true, List.forall_mem_cons] at hidle
    have hdigit : c.isDigit = false := by simpa [hchars] using hfirst
    rw [List.foldlM_cons, step_of_finish hfinish hidle.1 hdigit]
    exact foldlM_step_of_isIdle hidle.2 mentions

/-- A statement in which some fixed text stands between any two fragments of
    other kinds. -/
inductive Spaced : Sql → Prop
  | nil : Spaced []
  | single {fragment : Fragment} (hfragment : ∀ text, fragment ≠ .fixed text) : Spaced [fragment]
  | join {before after : Sql} {text : String} (hbefore : Spaced before) (htext : IsSpace text)
    (hafter : Spaced after) : Spaced (before ++ .fixed text :: after)

namespace Spaced

variable {sql : Sql}

/-- Read from the outside, the text of a spaced statement mentions what its
    fragments mention. -/
theorem finish_foldlM_step (hsql : Spaced sql) (before : List Mention) :
    ((sql.flatMap Fragment.chars).foldlM step ⟨.outside, before⟩).bind finish =
      some (before ++ sql.mentions) := by
  induction hsql generalizing before with
  | nil => simp [finish]
  | single hfragment => simpa using finish_foldlM_step_chars hfragment before
  | @join first rest text hbefore htext hafter ihbefore ihafter =>
    obtain ⟨reader, hreader, hfinish⟩ := Option.bind_eq_some_iff.mp (ihbefore before)
    have hspace : (Fragment.fixed text).chars.foldlM step reader =
        some ⟨.outside, before ++ mentions first⟩ := htext.foldlM_step hfinish
    rw [List.flatMap_append, List.flatMap_cons, List.foldlM_append, hreader, Option.bind_eq_bind,
      Option.bind_some, List.foldlM_append, hspace, Option.bind_eq_bind, Option.bind_some, ihafter]
    simp

/-- The text of a spaced statement mentions what its fragments mention, in their
    order. -/
theorem read_eq (hsql : Spaced sql) : read sql.text.toList = some sql.mentions := by
  rw [read, text, String.toList_ofList]
  simpa using hsql.finish_foldlM_step []

/-- Fixed text before a spaced statement. -/
theorem cons {text : String} (htext : IsSpace text) (hsql : Spaced sql) :
    Spaced (.fixed text :: sql) :=
  .join .nil htext hsql

end Spaced

theorem mentions_separated (separator : String) (parts : List Sql) :
    mentions (separated separator parts) = parts.flatMap mentions := by
  fun_induction separated separator parts <;> simp_all

theorem names_separated (separator : String) (parts : List Sql) :
    names (separated separator parts) = parts.flatMap names := by
  rw [names, mentions_separated, List.filterMap_flatMap]
  rfl

theorem placeholders_separated (separator : String) (parts : List Sql) :
    placeholders (separated separator parts) = parts.flatMap placeholders := by
  rw [placeholders, mentions_separated, List.filterMap_flatMap]
  rfl

theorem names_flatMap {α : Type} (part : α → Sql) (parts : List α) :
    names (parts.flatMap part) = parts.flatMap fun a => (part a).names := by
  rw [names, mentions, List.filterMap_flatMap, List.filterMap_flatMap]
  rfl

theorem placeholders_flatMap {α : Type} (part : α → Sql) (parts : List α) :
    placeholders (parts.flatMap part) = parts.flatMap fun a => (part a).placeholders := by
  rw [placeholders, mentions, List.filterMap_flatMap, List.filterMap_flatMap]
  rfl

end Sql

end ShadowCatalog
