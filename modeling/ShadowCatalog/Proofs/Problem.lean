import ShadowCatalog.Problem.Json
import ShadowCatalog.Proofs.Json.RoundTrip

/-!
# Problems that are read back

A problem is read back from its text, whatever its code and its message, if its details are
plain and other than `null`, and nest less deep than a text may (`Problem.reads_back_iff`).
The object of the problem counts as one level: details that nest as deep as a text may on its
own are too deep for a problem (`Problem.not_reads_back`).

The text has the tree of an object of two or three fields (`Problem.parsesTo_toJson`). Each of
them is the only one of its name, and is read as what it was written for
(`Problem.ofFields?_readFields`).
-/

namespace ShadowCatalog.Problem

open Json

variable {code : ProblemCode} {message : String}

/-- The fields of a problem, as they are read. -/
def readFields (code : ProblemCode) (message : String) (details : Option Tree) :
    List (String × Tree) :=
  ("code", .string (pieces code.tag)) :: ("message", .string (pieces message)) ::
    details.toList.map fun tree => ("details", tree)

/-- The names of fields that are written are the names that are read. -/
theorem named?_pieces (fields : List (String × Tree)) :
    named? (fields.map fun field => (pieces field.1, field.2)) = some fields := by
  induction fields with
  | nil => rfl
  | cons field fields ih => rw [List.map_cons, named?, text?_pieces, ih]; rfl

theorem code?_pieces (code : ProblemCode) : code? (.string (pieces code.tag)) = some code := by
  rw [code?, text?_pieces, Option.bind_some, ProblemCode.ofTag?_tag]

/-- Details other than `null` are read as they are, one level deep. -/
theorem details?_of_stands {details : Json} {tree : Tree} (h : Stands details tree)
    (hnull : details ≠ .null) :
    details? tree = if nesting details < maxDepth then some (some details) else none := by
  have htree : tree ≠ .null := by
    rintro rfl
    have hread := h (nesting details)
    rw [if_pos (Nat.le_refl _)] at hread
    exact hnull (Option.some.inj hread).symm
  have hread : details? tree = (tree.read? (maxDepth - 1)).map some := by
    unfold details?
    split
    · exact absurd rfl htree
    · rfl
  rw [hread, h]
  by_cases hdepth : nesting details < maxDepth
  · rw [if_pos hdepth, if_pos (Nat.le_sub_one_of_lt hdepth), Option.map_some]
  · rw [if_neg hdepth, if_neg (by unfold maxDepth at hdepth ⊢; omega), Option.map_none]

/-- Each field is the only one of its name. -/
theorem valuesOf_readFields (code : ProblemCode) (message : String) (details : Option Tree) :
    valuesOf "code" (readFields code message details) = [.string (pieces code.tag)] ∧
      valuesOf "message" (readFields code message details) = [.string (pieces message)] ∧
      valuesOf "details" (readFields code message details) = details.toList := by
  cases details <;> exact ⟨rfl, rfl, rfl⟩

/-- What the fields make is what they were written for. -/
theorem ofFields?_readFields (details : Option Tree) :
    ofFields? (readFields code message details) =
      match details with
      | none => some ⟨code, message, none⟩
      | some tree => (details? tree).map fun details => ⟨code, message, details⟩ := by
  obtain ⟨hcode, hmessage, hdetails⟩ := valuesOf_readFields code message details
  have hread : message? (.string (pieces message)) = some message := text?_pieces message
  rw [ofFields?, hcode, hmessage]
  simp only
  rw [code?_pieces, hread, hdetails]
  cases details with
  | none => rfl
  | some tree =>
    simp only [Option.toList_some, Option.bind_eq_bind, Option.bind_some, Option.pure_def]
    cases details? tree <;> rfl

/-- The text of a problem is read as the tree of its fields. -/
theorem parsesTo_toJson {details : Option Json} {trees : Option Tree}
    (h : List.Forall₂ ParsesTo details.toList trees.toList) :
    ParsesTo (toJson ⟨code, message, details⟩)
      (.object ((readFields code message trees).map fun field => (pieces field.1, field.2))) := by
  refine .object (.cons ⟨rfl, .string _⟩ (.cons ⟨rfl, .string _⟩ ?_))
  cases details with
  | none =>
    cases trees with
    | none => exact .nil
    | some tree => cases h
  | some value =>
    cases trees with
    | none => cases h
    | some tree =>
      obtain ⟨_, _, hvalue, -, heq⟩ := List.forall₂_cons_left_iff.1 h
      cases heq
      exact .cons ⟨rfl, hvalue⟩ .nil

/-- A problem is read from its text as its fields are. -/
theorem parse?_written {details : Option Json} {trees : Option Tree}
    (h : List.Forall₂ ParsesTo details.toList trees.toList) :
    parse? (written ⟨code, message, details⟩) = ofFields? (readFields code message trees) := by
  rw [parse?, written, compact, String.toList_ofList, (parsesTo_toJson h).parse?, Option.bind_some,
    ofTree?, named?_pieces, Option.bind_some]

/-- A problem with plain details is read back, or not at all if they nest too deep. -/
theorem parse?_written_of_plain {details : Json} (hplain : details.Plain)
    (hnull : details ≠ .null) :
    parse? (written ⟨code, message, some details⟩) =
      if nesting details < maxDepth then some ⟨code, message, some details⟩ else none := by
  obtain ⟨tree, htree, hstands⟩ := hplain.exists_tree
  have hparses : List.Forall₂ ParsesTo (some details).toList (some tree).toList :=
    .cons htree .nil
  rw [parse?_written hparses, ofFields?_readFields]
  simp only
  rw [details?_of_stands hstands hnull]
  split <;> rfl

/-- A problem is read back from its text if and only if its details, which are plain and other
    than `null`, nest less deep than a text may. -/
theorem reads_back_iff (p : Problem) (h : ∀ details ∈ p.details, details.Plain ∧ details ≠ .null) :
    parse? p.written = some p ↔ ∀ details ∈ p.details, details.nesting < maxDepth := by
  obtain ⟨code, message, details⟩ := p
  cases details with
  | none =>
    have hparses : List.Forall₂ ParsesTo (none : Option Json).toList (none : Option Tree).toList :=
      .nil
    rw [parse?_written hparses, ofFields?_readFields]
    exact iff_of_true rfl nofun
  | some details =>
    obtain ⟨hplain, hnull⟩ := h details rfl
    rw [parse?_written_of_plain hplain hnull]
    split
    · next hdepth => exact iff_of_true rfl fun _ hdetails => Option.some.inj hdetails ▸ hdepth
    · next hdepth => exact iff_of_false nofun fun hall => hdepth (hall details rfl)

/-! ## At the limit -/

/-- Arrays that nest so deep, around `null`. -/
def nestedArrays : Nat → Json
  | 0 => .null
  | n + 1 => .array [nestedArrays n]

theorem plain_nestedArrays (n : Nat) : (nestedArrays n).Plain := by
  induction n with
  | zero => exact .null
  | succ n ih => exact .array (List.forall_mem_singleton.2 ih)

theorem nesting_nestedArrays (n : Nat) : (nestedArrays n).nesting = n := by
  induction n with
  | zero => rfl
  | succ n ih => rw [nestedArrays, nesting, nestingOfItems, nestingOfItems, ih, Nat.max_zero]

/-- Details of every kind, which nest as deep as they may. -/
def corneredDetails : List (String × Json) := [
  ("deep", nestedArrays 125),
  ("wide \"\\", .array [.int (-2 ^ 63), .int (2 ^ 64 - 1), .bool true, .string "\r/"]),
  ("", .null)]

/-- A message of quotes, a backslash, controls and a character beyond the first plane. -/
def cornered : Problem where
  code := .databaseError
  message := "say \"a\\b\"\n\t" ++ String.ofList [Char.ofNat 0x01, Char.ofNat 0x1D11E]
  details := some (.object corneredDetails)

theorem reads_back_cornered :
    (∀ details ∈ cornered.details, details.Plain ∧ details ≠ .null) ∧
      (∀ details ∈ cornered.details, details.nesting < maxDepth) ∧
      parse? cornered.written = some cornered := by
  have hnames : (corneredDetails.map (·.1)).Nodup := by decide
  have hwide : (Json.array
      [.int (-2 ^ 63), .int (2 ^ 64 - 1), .bool true, .string "\r/"]).Plain := by
    refine .array ?_
    simp only [List.forall_mem_cons]
    exact ⟨.int (by decide) (by decide), .int (by decide) (by decide), .bool true, .string _, nofun⟩
  have hplain : (Json.object corneredDetails).Plain := by
    refine .object hnames ?_
    simp only [corneredDetails, List.forall_mem_cons]
    exact ⟨plain_nestedArrays 125, hwide, .null, nofun⟩
  have hdetails : ∀ details ∈ cornered.details, details.Plain ∧ details ≠ .null := by
    intro details heq
    cases heq
    exact ⟨hplain, nofun⟩
  have hnesting : ∀ details ∈ cornered.details, details.nesting < maxDepth := by
    intro details heq
    cases heq
    simp [corneredDetails, nesting, nestingOfFields, nestingOfItems, nesting_nestedArrays, maxDepth]
  exact ⟨hdetails, hnesting, (reads_back_iff cornered hdetails).2 hnesting⟩

/-- Details that nest as deep as a text may on its own. -/
def overdeep : Problem := ⟨.timeout, "late", some (nestedArrays 127)⟩

/-- Details that nest less deep than the limit of 128 are not read back if the object of the
    problem around them reaches it. -/
theorem not_reads_back :
    (∀ details ∈ overdeep.details, details.Plain ∧ details ≠ .null ∧ details.nesting < 128) ∧
      parse? overdeep.written ≠ some overdeep := by
  have hnull : nestedArrays 127 ≠ .null := nofun
  have hdeep : ¬(nestedArrays 127).nesting < maxDepth := by
    rw [nesting_nestedArrays]
    decide
  refine ⟨fun details heq => ?_, ?_⟩
  · cases heq
    refine ⟨plain_nestedArrays 127, hnull, ?_⟩
    rw [nesting_nestedArrays]
    decide
  · rw [overdeep, parse?_written_of_plain (plain_nestedArrays 127) hnull, if_neg hdeep]
    exact nofun

end ShadowCatalog.Problem
