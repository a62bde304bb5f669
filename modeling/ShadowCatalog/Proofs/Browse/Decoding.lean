import ShadowCatalog.Browse.Request
import ShadowCatalog.Proofs.Search.Respacing
import ShadowCatalog.Proofs.Text.Integer

/-!
# How parameters are decoded

A browse request is decoded from the *values* given for each of the four reserved names,
in order of arrival, and from the filters, which are all other parameters (`Decodes`):

* the first offset that cannot be read, if there is one, is what is wrong, whatever
  comes after it and whether or not a table is named;
* else a table has to be named by the last value given for it;
* else the request has what the last values say (`Describes`), and the filters.

One parameter more keeps what is described (`Describes.withParameter`), so all parameters
do (`Describes.withParameters`). Only the order of the values of one name and that of the
filters matter (`ofParameters_congr`). So a request is decoded from its own parameters
wherever the reserved ones stand among the filters (`Presents.ofParameters_eq`): it is
enough to look at the reserved ones followed by the filters (`Presentable.decodes`).
-/

namespace ShadowCatalog

open Text

namespace Text

/-- A text without blanks is not trimmed. -/
theorem trim_eq_self {cs : List Char} (h : ∀ c ∈ cs, isBlank c = false) : trim cs = cs := by
  have hend {cs : List Char} (h : ∀ c ∈ cs, isBlank c = false) :
      dropEndWhile isBlank cs = cs := by
    induction cs with
    | nil => rfl
    | cons c cs ih =>
      rw [List.forall_mem_cons] at h
      rw [dropEndWhile_cons h.1, ih h.2]
  cases cs with
  | nil => rfl
  | cons c cs => rw [trim, List.dropWhile_cons_of_neg (by simp [h c]), hend h]

end Text

/-- Each direction is read from its word. -/
theorem SortOrder.ofText_word (order : SortOrder) : SortOrder.ofText order.word = order := by
  cases order <;> decide

namespace BrowseRequest

/-! ## Offsets -/

/-- How a text is read as an offset, an integer of 64 bits that is not negative. The
    blanks at its ends do not count, and a text of blanks only is read as 0. -/
inductive ReadsOffset (text : String) : Except ValidationError Int → Prop
  | blank : trim text.toList = [] → ReadsOffset text (.ok 0)
  | natural {n : Int} : WritesInteger (trim text.toList) n → 0 ≤ n → n < 2 ^ 63 →
      ReadsOffset text (.ok n)
  | negative {n : Int} : WritesInteger (trim text.toList) n → -2 ^ 63 ≤ n → n < 0 →
      ReadsOffset text (.error (.invalidValue "offset" "must not be negative"))
  | unreadable : trim text.toList ≠ [] →
      (∀ n, WritesInteger (trim text.toList) n → n < -2 ^ 63 ∨ 2 ^ 63 ≤ n) →
      ReadsOffset text (.error (.invalidInteger "offset" (trimmed text)))

variable {text : String}

theorem offset?_of_trim_eq_nil (h : trim text.toList = []) : offset? text = .ok 0 := by
  rw [offset?, h]

theorem offset?_of_trim_ne_nil (h : trim text.toList ≠ []) :
    offset? text =
      match signed? 64 (trim text.toList) with
      | none => .error (.invalidInteger "offset" (trimmed text))
      | some n =>
        if n < 0 then .error (.invalidValue "offset" "must not be negative") else .ok n := by
  rw [offset?]
  split
  · next hnil => exact absurd hnil h
  · rw [trimmed]
    cases signed? 64 (trim text.toList) with
    | none => rfl
    | some n => simp only [checkOffset]; split_ifs <;> rfl

theorem offset?_eq_iff {result : Except ValidationError Int} :
    offset? text = result ↔ ReadsOffset text result := by
  constructor
  · rintro rfl
    by_cases htrim : trim text.toList = []
    · rw [offset?_of_trim_eq_nil htrim]
      exact .blank htrim
    · rw [offset?_of_trim_ne_nil htrim]
      cases hread : signed? 64 (trim text.toList) with
      | none =>
        refine .unreadable htrim fun n hn => ?_
        by_contra hrange
        rw [not_or, Int.not_lt, Int.not_le] at hrange
        exact absurd (signed?_eq_some_iff.2 ⟨hn, hrange⟩) (by rw [hread]; exact nofun)
      | some n =>
        obtain ⟨hn, hlow, hhigh⟩ := signed?_eq_some_iff.1 hread
        simp only
        split_ifs with hneg
        · exact .negative hn hlow hneg
        · exact .natural hn (Int.not_lt.1 hneg) hhigh
  · intro h
    -- What writes an integer is not blank.
    have hne {n : Int} (hn : WritesInteger (trim text.toList) n) : trim text.toList ≠ [] := by
      intro hnil
      rw [hnil] at hn
      obtain ⟨⟨hnil, -, -⟩⟩ := hn
      exact hnil rfl
    cases h with
    | blank h => exact offset?_of_trim_eq_nil h
    | natural hn hlow hhigh =>
      rw [offset?_of_trim_ne_nil (hne hn), signed?_eq_some_iff.2 ⟨hn, by omega, hhigh⟩]
      exact if_neg (Int.not_lt.2 hlow)
    | negative hn hlow hneg =>
      rw [offset?_of_trim_ne_nil (hne hn), signed?_eq_some_iff.2 ⟨hn, hlow, by omega⟩]
      exact if_pos hneg
    | unreadable hne h =>
      have hread : signed? 64 (trim text.toList) = none := by
        rw [Option.eq_none_iff_forall_ne_some]
        intro n hn
        obtain ⟨hn, hlow, hhigh⟩ := signed?_eq_some_iff.1 hn
        exact (h n hn).elim (Int.not_lt.2 hlow) (Int.not_le.2 hhigh)
      rw [offset?_of_trim_ne_nil hne, hread]

/-- A text is read in one way. -/
theorem ReadsOffset.unique {result result' : Except ValidationError Int}
    (h : ReadsOffset text result) (h' : ReadsOffset text result') : result = result' :=
  (offset?_eq_iff.2 h).symm.trans (offset?_eq_iff.2 h')

theorem ReadsOffset.ne_error {n : Int} {cause : ValidationError} (h : ReadsOffset text (.ok n)) :
    ¬ReadsOffset text (.error cause) := fun h' => nomatch h.unique h'

/-- The usual text of an offset is read as the offset. -/
theorem readsOffset_toString {offset : Int} (hlow : 0 ≤ offset) (hhigh : offset < 2 ^ 63) :
    ReadsOffset (toString offset) (.ok offset) := by
  have hwrites := writesInteger_toString offset
  rw [← trim_eq_self hwrites.isBlank] at hwrites
  exact .natural hwrites hlow hhigh

/-! ## Values and filters -/

/-- The names with a meaning of their own. -/
def reservedNames : List String := ["table", "sort_column", "sort_order", "offset"]

/-- The values given for a name, in order of arrival. -/
def values (name : String) (parameters : List (String × String)) : List String :=
  parameters.filterMap fun p => if p.1 = name then some p.2 else none

/-- The last value given for a name, which is blank if there is none. -/
def lastValue (name : String) (parameters : List (String × String)) : String :=
  (values name parameters).getLastD ""

/-- The parameters without a reserved name, in order of arrival. -/
def unreserved (parameters : List (String × String)) : List (String × String) :=
  parameters.filter fun p => p.1 ∉ reservedNames

/-- All of the texts are read as offsets. -/
def ReadsAll (texts : List String) : Prop := ∀ text ∈ texts, ∃ n, ReadsOffset text (.ok n)

/-- The first of the texts that is not read as an offset is wrong for this cause. -/
def FirstWrong (texts : List String) (cause : ValidationError) : Prop :=
  ∃ before text after, texts = before ++ text :: after ∧ ReadsAll before ∧
    ReadsOffset text (.error cause)

/-- A request is as parameters say: what is not given is what a blank value gives. -/
structure Describes (parameters : List (String × String)) (request : BrowseRequest) : Prop where
  table : request.table = trimmed (lastValue "table" parameters)
  sortColumn : request.sortColumn =
    (some (trimmed (lastValue "sort_column" parameters))).filter (· ≠ "")
  sortOrder : request.sortOrder = .ofText (lastValue "sort_order" parameters)
  offset : ReadsOffset (lastValue "offset" parameters) (.ok request.offset)
  filters : request.filters = unreserved parameters

/-- What parameters are decoded to. -/
inductive Decodes (parameters : List (String × String)) :
    Except ValidationError BrowseRequest → Prop
  | offset {cause : ValidationError} : FirstWrong (values "offset" parameters) cause →
      Decodes parameters (.error cause)
  | noTable : ReadsAll (values "offset" parameters) → trimmed (lastValue "table" parameters) = "" →
      Decodes parameters (.error (.requiredFieldMissing "table"))
  | request {request : BrowseRequest} : ReadsAll (values "offset" parameters) →
      Describes parameters request → request.table ≠ "" → Decodes parameters (.ok request)

variable {name value : String} {parameters : List (String × String)} {request : BrowseRequest}

theorem mem_values : value ∈ values name parameters ↔ (name, value) ∈ parameters := by
  simp [values]

theorem values_append (before after : List (String × String)) :
    values name (before ++ after) = values name before ++ values name after :=
  List.filterMap_append

theorem values_nil : values name [] = [] := rfl

theorem values_cons (p : String × String) :
    values name (p :: parameters) =
      if p.1 = name then p.2 :: values name parameters else values name parameters := by
  rw [values, List.filterMap_cons]
  split_ifs <;> rfl

theorem lastValue_concat (p : String × String) :
    lastValue name (parameters ++ [p]) = if p.1 = name then p.2 else lastValue name parameters := by
  rw [lastValue, values_append, values_cons, values_nil]
  split_ifs
  · rw [List.getLastD_concat]
  · rw [List.append_nil, lastValue]

theorem unreserved_concat (p : String × String) :
    unreserved (parameters ++ [p]) =
      unreserved parameters ++ if p.1 ∉ reservedNames then [p] else [] := by
  rw [unreserved, List.filter_append, List.filter_cons, List.filter_nil, unreserved]
  simp only [decide_eq_true_eq]

/-! ## One parameter after the other -/

/-- The request without parameters is described by none. -/
theorem describes_nil : Describes [] { table := "" } where
  table := by decide
  sortColumn := by decide
  sortOrder := by decide
  offset := .blank (by decide)
  filters := rfl

/-- What a parameter changes. -/
theorem withParameter_eq_ok {next : BrowseRequest}
    (hnext : request.withParameter name value = .ok next) :
    (next.table = if name = "table" then trimmed value else request.table) ∧
    (next.sortColumn = if name = "sort_column" then (some (trimmed value)).filter (· ≠ "")
      else request.sortColumn) ∧
    (next.sortOrder = if name = "sort_order" then .ofText value else request.sortOrder) ∧
    (if name = "offset" then ReadsOffset value (.ok next.offset)
      else next.offset = request.offset) ∧
    next.filters = request.filters ++ if name ∉ reservedNames then [(name, value)] else [] := by
  rw [withParameter] at hnext
  split_ifs at hnext with htable hcolumn horder hoffset
  · obtain rfl := Except.ok.inj hnext
    simp [htable, reservedNames]
  · obtain rfl := Except.ok.inj hnext
    simp [hcolumn, reservedNames]
  · obtain rfl := Except.ok.inj hnext
    simp [horder, reservedNames]
  · cases hread : offset? value with
    | error cause => rw [hread] at hnext; cases hnext
    | ok n =>
      rw [hread] at hnext
      obtain rfl := Except.ok.inj hnext
      simp [hoffset, reservedNames, ← offset?_eq_iff, hread]
  · obtain rfl := Except.ok.inj hnext
    simp [htable, hcolumn, horder, hoffset, reservedNames]

/-- Only an offset can be wrong in itself. -/
theorem withParameter_eq_error_iff {cause : ValidationError} :
    request.withParameter name value = .error cause ↔
      name = "offset" ∧ ReadsOffset value (.error cause) := by
  rw [← offset?_eq_iff, withParameter]
  split_ifs with htable hcolumn horder hoffset
  · simp [htable]
  · simp [hcolumn]
  · simp [horder]
  · cases offset? value <;> simp [hoffset, Except.map]
  · simp [hoffset]

/-- One parameter more keeps what is described. -/
theorem Describes.withParameter {next : BrowseRequest} (h : Describes parameters request)
    (hnext : request.withParameter name value = .ok next) :
    Describes (parameters ++ [(name, value)]) next := by
  obtain ⟨htable, hcolumn, horder, hoffset, hfilters⟩ := withParameter_eq_ok hnext
  constructor
  · rw [htable, lastValue_concat, h.table]
    split_ifs <;> rfl
  · rw [hcolumn, lastValue_concat, h.sortColumn]
    split_ifs <;> rfl
  · rw [horder, lastValue_concat, h.sortOrder]
    split_ifs <;> rfl
  · rw [lastValue_concat]
    split_ifs at hoffset ⊢
    · exact hoffset
    · rw [hoffset]
      exact h.offset
  · rw [hfilters, unreserved_concat, h.filters]

/-- From a described request on, parameters are added to what describes it. -/
theorem Describes.withParameters {more : List (String × String)} {final : BrowseRequest}
    (h : Describes parameters request) (hfinal : request.withParameters more = .ok final) :
    Describes (parameters ++ more) final := by
  induction more generalizing parameters request with
  | nil =>
    rw [BrowseRequest.withParameters] at hfinal
    obtain rfl := Except.ok.inj hfinal
    rwa [List.append_nil]
  | cons p more ih =>
    rw [BrowseRequest.withParameters] at hfinal
    cases hnext : request.withParameter p.1 p.2 with
    | error cause => rw [hnext] at hfinal; cases hfinal
    | ok next =>
      rw [hnext] at hfinal
      have := ih (h.withParameter hnext) hfinal
      rwa [List.append_assoc, List.singleton_append] at this

theorem firstWrong_cons {texts : List String} {cause : ValidationError} :
    FirstWrong (text :: texts) cause ↔
      ReadsOffset text (.error cause) ∨
        (∃ n, ReadsOffset text (.ok n)) ∧ FirstWrong texts cause := by
  constructor
  · rintro ⟨before, wrong, after, hsplit, hbefore, hwrong⟩
    obtain ⟨-, hsplit⟩ | ⟨before, rfl, rfl⟩ := List.cons_eq_append_iff.1 hsplit
    · obtain ⟨rfl, rfl⟩ := List.cons.inj hsplit
      exact .inl hwrong
    · obtain ⟨htext, hbefore⟩ := List.forall_mem_cons.1 hbefore
      exact .inr ⟨htext, before, wrong, after, rfl, hbefore, hwrong⟩
  · rintro (hwrong | ⟨htext, before, wrong, after, rfl, hbefore, hwrong⟩)
    · exact ⟨[], text, texts, rfl, List.forall_mem_nil _, hwrong⟩
    · exact ⟨text :: before, wrong, after, rfl, List.forall_mem_cons.2 ⟨htext, hbefore⟩, hwrong⟩

/-- Texts are all read, or there is a first one that is not. -/
theorem readsAll_iff {texts : List String} : ReadsAll texts ↔ ¬∃ cause, FirstWrong texts cause := by
  induction texts with
  | nil => exact ⟨fun _ ⟨_, _, _, _, h, _⟩ => by simp at h, fun _ => List.forall_mem_nil _⟩
  | cons text texts ih =>
    simp only [firstWrong_cons]
    rw [ReadsAll, List.forall_mem_cons, ← ReadsAll, ih]
    cases hread : offset? text with
    | error cause =>
      have hwrong := offset?_eq_iff.1 hread
      exact iff_of_false (fun h => h.1.elim fun n hn => hn.ne_error hwrong)
        (not_not.2 ⟨cause, .inl hwrong⟩)
    | ok n =>
      have htext := offset?_eq_iff.1 hread
      have hone : ∃ n, ReadsOffset text (.ok n) := ⟨n, htext⟩
      simp only [hone, htext.ne_error, true_and, false_or]

/-- The parameters go wrong at the first offset that is not read. -/
theorem withParameters_eq_error_iff {cause : ValidationError} :
    request.withParameters parameters = .error cause ↔
      FirstWrong (values "offset" parameters) cause := by
  induction parameters generalizing request with
  | nil => simp [withParameters, values_nil, FirstWrong]
  | cons p parameters ih =>
    rw [withParameters, values_cons]
    cases hnext : request.withParameter p.1 p.2 with
    | error wrong =>
      obtain ⟨hname, hwrong⟩ := withParameter_eq_error_iff.1 hnext
      rw [if_pos hname, firstWrong_cons]
      constructor
      · intro h
        obtain rfl := Except.error.inj h
        exact .inl hwrong
      · rintro (h | ⟨⟨n, hn⟩, -⟩)
        · rw [Except.error.inj (hwrong.unique h)]
        · exact absurd hwrong hn.ne_error
    | ok next =>
      have hoffset := (withParameter_eq_ok hnext).2.2.2.1
      simp only
      rw [ih]
      split_ifs at hoffset ⊢
      · rw [firstWrong_cons, or_iff_right hoffset.ne_error, and_iff_right ⟨_, hoffset⟩]
      · rfl

/-- Parameters describe one request. -/
theorem Describes.unique {other : BrowseRequest} (h : Describes parameters request)
    (hother : Describes parameters other) : request = other := by
  have htable := h.table.trans hother.table.symm
  have hcolumn := h.sortColumn.trans hother.sortColumn.symm
  have horder := h.sortOrder.trans hother.sortOrder.symm
  have hoffset := Except.ok.inj (h.offset.unique hother.offset)
  have hfilters := h.filters.trans hother.filters.symm
  cases request
  cases other
  simp_all

theorem withParameters_eq_ok_iff :
    withParameters { table := "" } parameters = .ok request ↔
      ReadsAll (values "offset" parameters) ∧ Describes parameters request := by
  constructor
  · intro hrun
    refine ⟨readsAll_iff.2 fun ⟨cause, hwrong⟩ => ?_, describes_nil.withParameters hrun⟩
    rw [withParameters_eq_error_iff.2 hwrong] at hrun
    exact absurd hrun nofun
  · rintro ⟨hall, hdescribes⟩
    cases hrun : withParameters { table := "" } parameters with
    | error cause => exact absurd ⟨cause, withParameters_eq_error_iff.1 hrun⟩ (readsAll_iff.1 hall)
    | ok other => rw [hdescribes.unique (describes_nil.withParameters hrun)]

theorem exists_describes (hall : ReadsAll (values "offset" parameters)) :
    ∃ request, Describes parameters request := by
  cases hrun : withParameters { table := "" } parameters with
  | error cause => exact absurd ⟨cause, withParameters_eq_error_iff.1 hrun⟩ (readsAll_iff.1 hall)
  | ok request => exact ⟨request, describes_nil.withParameters hrun⟩

/-- What parameters are decoded to, in all cases. -/
theorem ofParameters_eq_iff {result : Except ValidationError BrowseRequest} :
    ofParameters parameters = result ↔ Decodes parameters result := by
  constructor
  · rintro rfl
    rw [ofParameters]
    cases hrun : withParameters { table := "" } parameters with
    | error cause => exact .offset (withParameters_eq_error_iff.1 hrun)
    | ok request =>
      obtain ⟨hall, hdescribes⟩ := withParameters_eq_ok_iff.1 hrun
      simp only
      split_ifs with htable
      · exact .noTable hall (hdescribes.table.symm.trans htable)
      · exact .request hall hdescribes htable
  · intro h
    rw [ofParameters]
    cases h with
    | offset hwrong => rw [withParameters_eq_error_iff.2 hwrong]
    | noTable hall htable =>
      obtain ⟨request, hdescribes⟩ := exists_describes hall
      rw [withParameters_eq_ok_iff.2 ⟨hall, hdescribes⟩]
      exact if_pos (hdescribes.table.trans htable)
    | request hall hdescribes htable =>
      rw [withParameters_eq_ok_iff.2 ⟨hall, hdescribes⟩]
      exact if_neg htable

/-! ## What goes wrong -/

theorem trimmed_lastValue_eq_iff :
    trimmed (lastValue name parameters) = "" ↔
      ∀ last, (values name parameters).getLast? = some last → trimmed last = "" := by
  rw [lastValue, List.getLastD_eq_getLast?]
  cases (values name parameters).getLast? with
  | none => exact iff_of_true (by decide) nofun
  | some last => simp

/-- Decoding fails if some offset is wrong, or no table is named last. -/
theorem ofParameters_eq_error_iff :
    (∃ cause, ofParameters parameters = .error cause) ↔
      (∃ text ∈ values "offset" parameters, ∃ cause, ReadsOffset text (.error cause)) ∨
        ∀ table, (values "table" parameters).getLast? = some table → trimmed table = "" := by
  rw [← trimmed_lastValue_eq_iff]
  constructor
  · rintro ⟨cause, h⟩
    cases ofParameters_eq_iff.1 h with
    | offset hwrong =>
      obtain ⟨before, text, after, hvalues, -, htext⟩ := hwrong
      exact .inl ⟨text, by simp [hvalues], cause, htext⟩
    | noTable _ htable => exact .inr htable
  · intro h
    cases hresult : ofParameters parameters with
    | error cause => exact ⟨cause, rfl⟩
    | ok request =>
      cases ofParameters_eq_iff.1 hresult with
      | request hall hdescribes htable =>
        obtain ⟨text, htext, cause, hwrong⟩ | hblank := h
        · obtain ⟨n, hn⟩ := hall text htext
          exact absurd hwrong hn.ne_error
        · exact absurd (hdescribes.table.trans hblank) htable

section Congr

variable {other : List (String × String)}
  (hvalues : ∀ name ∈ reservedNames, values name parameters = values name other)
  (hfilters : unreserved parameters = unreserved other)
include hvalues

theorem lastValue_congr (name : String) (hname : name ∈ reservedNames) :
    lastValue name parameters = lastValue name other := by
  rw [lastValue, hvalues name hname, lastValue]

include hfilters

theorem Describes.congr (h : Describes parameters request) : Describes other request where
  table := by rw [h.table, lastValue_congr hvalues "table" (by decide)]
  sortColumn := by rw [h.sortColumn, lastValue_congr hvalues "sort_column" (by decide)]
  sortOrder := by rw [h.sortOrder, lastValue_congr hvalues "sort_order" (by decide)]
  offset := by
    rw [← lastValue_congr hvalues "offset" (by decide)]
    exact h.offset
  filters := h.filters.trans hfilters

theorem Decodes.congr {result : Except ValidationError BrowseRequest}
    (h : Decodes parameters result) : Decodes other result := by
  have hoffsets := hvalues "offset" (by decide)
  cases h with
  | offset hwrong => exact .offset (hoffsets ▸ hwrong)
  | noTable hall htable =>
    exact .noTable (hoffsets ▸ hall) (lastValue_congr hvalues "table" (by decide) ▸ htable)
  | request hall hdescribes htable =>
    exact .request (hoffsets ▸ hall) (hdescribes.congr hvalues hfilters) htable

/-- Where the reserved parameters stand among the filters makes no difference. -/
theorem ofParameters_congr : ofParameters parameters = ofParameters other :=
  (ofParameters_eq_iff.2 ((ofParameters_eq_iff.1 rfl).congr hvalues hfilters)).symm

end Congr

/-! ## From a request to parameters and back -/

/-- The reserved parameters for a request. -/
def reservedParameters (request : BrowseRequest) : List (String × String) :=
  [("table", request.table)] ++ request.sortColumn.toList.map (("sort_column", ·)) ++
    [("sort_order", request.sortOrder.word), ("offset", toString request.offset)]

/-- The parameters of a request: the reserved ones, and the filters in their order. -/
structure Presents (parameters : List (String × String)) (request : BrowseRequest) : Prop where
  perm : parameters.Perm (request.reservedParameters ++ request.filters)
  filters : request.filters.Sublist parameters

/-- A request that can be told by parameters. -/
structure Presentable (request : BrowseRequest) : Prop where
  table : request.table ≠ "" ∧ trimmed request.table = request.table
  sortColumn : ∀ column, request.sortColumn = some column → column ≠ "" ∧ trimmed column = column
  offset : 0 ≤ request.offset ∧ request.offset < 2 ^ 63
  filters : ∀ filter ∈ request.filters, filter.1 ∉ reservedNames

theorem values_reservedParameters (request : BrowseRequest) :
    values "table" request.reservedParameters = [request.table] ∧
    values "sort_column" request.reservedParameters = request.sortColumn.toList ∧
    values "sort_order" request.reservedParameters = [request.sortOrder.word] ∧
    values "offset" request.reservedParameters = [toString request.offset] := by
  cases hcolumn : request.sortColumn <;> simp [values, reservedParameters, hcolumn]

/-- The reserved parameters give no name two values. -/
theorem length_values_reservedParameters (request : BrowseRequest) (hname : name ∈ reservedNames) :
    (values name request.reservedParameters).length ≤ 1 := by
  obtain ⟨htable, hcolumn, horder, hoffset⟩ := values_reservedParameters request
  simp only [reservedNames, List.mem_cons, List.not_mem_nil, or_false] at hname
  obtain rfl | rfl | rfl | rfl := hname
  · rw [htable, List.length_singleton]
  · rw [hcolumn, Option.length_toList]
    split_ifs <;> decide
  · rw [horder, List.length_singleton]
  · rw [hoffset, List.length_singleton]

theorem unreserved_reservedParameters : unreserved request.reservedParameters = [] := by
  cases hcolumn : request.sortColumn <;>
    simp [unreserved, reservedParameters, reservedNames, hcolumn]

theorem mem_reservedNames {p : String × String} (h : p ∈ request.reservedParameters) :
    p.1 ∈ reservedNames := by
  simpa using List.filter_eq_nil_iff.1 unreserved_reservedParameters p h

namespace Presentable

variable (hrequest : Presentable request)
include hrequest

theorem unreserved_filters : unreserved request.filters = request.filters :=
  List.filter_eq_self.2 fun filter hfilter => decide_eq_true (hrequest.filters filter hfilter)

theorem unreserved_append_filters :
    unreserved (request.reservedParameters ++ request.filters) = request.filters := by
  rw [unreserved, List.filter_append, ← unreserved, ← unreserved, unreserved_reservedParameters,
    hrequest.unreserved_filters, List.nil_append]

theorem values_append_filters (hname : name ∈ reservedNames) :
    values name (request.reservedParameters ++ request.filters) =
      values name request.reservedParameters := by
  have hfilters : values name request.filters = [] := by
    rw [List.eq_nil_iff_forall_not_mem]
    intro value hvalue
    exact hrequest.filters _ (mem_values.1 hvalue) hname
  rw [values_append, hfilters, List.append_nil]

/-- The reserved parameters and then the filters are decoded to the request. -/
theorem decodes : Decodes (request.reservedParameters ++ request.filters) (.ok request) := by
  obtain ⟨htable, hcolumn, horder, hoffset⟩ := values_reservedParameters request
  rw [← hrequest.values_append_filters (by decide)] at htable hcolumn horder hoffset
  have hread := readsOffset_toString hrequest.offset.1 hrequest.offset.2
  refine .request ?_ ⟨?_, ?_, ?_, ?_, ?_⟩ hrequest.table.1
  · rw [hoffset]
    exact List.forall_mem_singleton.2 ⟨_, hread⟩
  · rw [lastValue, htable]
    exact hrequest.table.2.symm
  · rw [lastValue, hcolumn]
    cases hsort : request.sortColumn with
    | none => decide
    | some column =>
      obtain ⟨hne, htrimmed⟩ := hrequest.sortColumn column hsort
      change some column = (some (trimmed column)).filter (· ≠ "")
      rw [htrimmed, Option.filter_some, if_pos (decide_eq_true hne)]
  · rw [lastValue, horder]
    exact (SortOrder.ofText_word _).symm
  · rw [lastValue, hoffset]
    exact hread
  · exact hrequest.unreserved_append_filters.symm

end Presentable

namespace Presents

variable (h : Presents parameters request) (hrequest : Presentable request)
include h hrequest

/-- No reserved name is given two values, so their order is the only one. -/
theorem values_eq (name : String) (hname : name ∈ reservedNames) :
    values name parameters = values name (request.reservedParameters ++ request.filters) := by
  have hperm := h.perm.filterMap fun p => if p.1 = name then some p.2 else none
  rw [← values, ← values, hrequest.values_append_filters hname] at hperm
  rw [hrequest.values_append_filters hname]
  have hone := length_values_reservedParameters request hname
  match hvalues : values name request.reservedParameters, hone with
  | [], _ => exact (hvalues ▸ hperm).eq_nil
  | [value], _ => exact List.perm_singleton.1 (hvalues ▸ hperm)

/-- What is not reserved is the filters, in their order. -/
theorem unreserved_eq :
    unreserved parameters = unreserved (request.reservedParameters ++ request.filters) := by
  have hsame := hrequest.unreserved_append_filters
  have hsublist : request.filters.Sublist (unreserved parameters) := by
    rw [← hrequest.unreserved_filters]
    exact h.filters.filter _
  have hperm : (unreserved parameters).Perm request.filters := by
    rw [← hsame]
    exact h.perm.filter _
  rw [hsame]
  exact (hsublist.eq_of_length hperm.length_eq.symm).symm

/-- However a request is told by its parameters, they are decoded to it. -/
theorem ofParameters_eq : ofParameters parameters = .ok request :=
  (ofParameters_congr (h.values_eq hrequest) (h.unreserved_eq hrequest)).trans
    (ofParameters_eq_iff.2 hrequest.decodes)

end Presents

end BrowseRequest

end ShadowCatalog
