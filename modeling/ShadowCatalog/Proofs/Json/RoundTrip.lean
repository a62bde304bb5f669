import Mathlib.Data.List.Forall2
import Mathlib.Data.List.Nodup
import ShadowCatalog.Proofs.Json.Scalar

/-!
# Values in JSON that are read back

A value is *plain* if there is no double in it, its integers have 64 bits, and no object has
two fields of one name (`Plain`). The text of a plain value is read in two steps:

* It has a tree, whatever follows it (`ParsesTo`). What is parsed of an array or an object is
  put together from what is parsed of its parts (`ParsesTo.array`, `ParsesTo.object`).
* The tree stands for the value, provided that arrays and objects may nest as deep as they do
  in it (`Stands`). Otherwise it stands for nothing.

Both hold of each plain value (`Plain.exists_tree`), by induction on how it is put together.
-/

namespace ShadowCatalog.Json

/-! ## Values -/

/-- A value without doubles, of integers of 64 bits, with a sign or without, and of objects in
    which each field has a name of its own. -/
inductive Plain : Json → Prop
  | null : Plain .null
  | bool (value : Bool) : Plain (.bool value)
  | int {value : Int} : -2 ^ 63 ≤ value → value < 2 ^ 64 → Plain (.int value)
  | string (value : String) : Plain (.string value)
  | array {items : List Json} : (∀ item ∈ items, Plain item) → Plain (.array items)
  | object {fields : List (String × Json)} :
      (fields.map (·.1)).Nodup → (∀ field ∈ fields, Plain field.2) → Plain (.object fields)

mutual

/-- How deep arrays and objects nest in a value. -/
def nesting : Json → Nat
  | .array items => nestingOfItems items + 1
  | .object fields => nestingOfFields fields + 1
  | _ => 0

/-- How deep arrays and objects nest in some item. -/
def nestingOfItems : List Json → Nat
  | [] => 0
  | item :: items => max (nesting item) (nestingOfItems items)

/-- How deep arrays and objects nest in the value of some field. -/
def nestingOfFields : List (String × Json) → Nat
  | [] => 0
  | (_, value) :: fields => max (nesting value) (nestingOfFields fields)

end

/-! ## The tree of a text -/

/-- The text of a value is read as a tree, whatever follows it. It does not begin with a blank,
    nor as an array ends. -/
structure ParsesTo (j : Json) (tree : Tree) : Prop where
  begins : ∃ c cs, written j = c :: cs ∧ isSeparator c = false ∧ c ≠ ']'
  value? : ∀ rest fuel, Ends rest → (written j).length < fuel →
    Tree.value? fuel (written j ++ rest) = some (tree, rest)

/-- The text of a field is read as the pieces of its name and the tree of its value. -/
def FieldParsesTo (field : String × Json) (tree : List Piece × Tree) : Prop :=
  tree.1 = pieces field.1 ∧ ParsesTo field.2 tree.2

theorem ends_cons {c : Char} (h : c.isDigit = false ∧ c ≠ '.' ∧ c ≠ 'e' ∧ c ≠ 'E')
    (cs : List Char) : Ends (c :: cs) := by
  intro d hd
  cases hd
  exact h

theorem skip_of_begins {c : Char} (h : isSeparator c = false) (cs : List Char) :
    skip (c :: cs) = c :: cs := by
  rw [skip, List.dropWhile_cons_of_neg (by rw [h]; exact Bool.false_ne_true)]

/-! ### Values that hold no other value -/

namespace ParsesTo

/-- Fuel for a text is fuel for one step more than it is for nothing. -/
theorem exists_fuel {n fuel : Nat} (h : n < fuel) : ∃ more, fuel = more + 1 :=
  ⟨fuel - 1, by omega⟩

theorem length_pos {j : Json} {tree : Tree} (h : ParsesTo j tree) : 0 < (written j).length := by
  obtain ⟨c, cs, hbegins, -⟩ := h.begins
  rw [hbegins]
  exact Nat.succ_pos _

theorem null : ParsesTo .null .null where
  begins := ⟨_, _, rfl, rfl, by decide⟩
  value? rest fuel _ h := by
    obtain ⟨fuel, rfl⟩ := exists_fuel h
    rfl

theorem bool (value : Bool) : ParsesTo (.bool value) (.bool value) where
  begins := by cases value <;> exact ⟨_, _, rfl, rfl, by decide⟩
  value? rest fuel _ h := by
    obtain ⟨fuel, rfl⟩ := exists_fuel h
    cases value <;> rfl

theorem string (value : String) : ParsesTo (.string value) (.string (pieces value)) where
  begins := ⟨'"', _, rfl, rfl, by decide⟩
  value? rest fuel _ h := by
    obtain ⟨fuel, rfl⟩ := exists_fuel h
    have hpieces := pieces?_string value rest
    change (pieces? (value.toList.flatMap escapedChar ++ ['"'] ++ rest)).map _ = _
    rw [List.append_assoc, List.singleton_append, hpieces]
    rfl

/-- The first character of a number is no other than a digit or a minus sign. -/
theorem ne_of_begins_number {c d : Char} (h : c.isDigit = true ∨ c = '-') (hd : d.isDigit = false)
    (hminus : d ≠ '-') : c ≠ d := by
  rintro rfl
  rcases h with h | h
  · exact Bool.false_ne_true (hd.symm.trans h)
  · exact hminus h

theorem isSeparator_of_begins_number {c : Char} (h : c.isDigit = true ∨ c = '-') :
    isSeparator c = false := by
  have hspace : c ≠ ' ' := ne_of_begins_number h rfl (by decide)
  have hline : c ≠ '\n' := ne_of_begins_number h rfl (by decide)
  have htab : c ≠ '\t' := ne_of_begins_number h rfl (by decide)
  have hreturn : c ≠ '\r' := ne_of_begins_number h rfl (by decide)
  simp [isSeparator, hspace, hline, htab, hreturn]

/-- A number begins with a digit or a minus sign. -/
theorem toList_toString_eq_cons (value : Int) :
    ∃ c cs, (toString value).toList = c :: cs ∧ (c.isDigit = true ∨ c = '-') := by
  rw [toList_toString]
  split
  · exact ⟨_, _, rfl, .inr rfl⟩
  · obtain ⟨c, cs, heq⟩ := List.exists_cons_of_ne_nil (Nat.toDigits_ne_nil (n := value.natAbs))
    exact ⟨c, cs, heq, .inl (isDigit_of_mem_toDigits c (heq ▸ List.mem_cons_self))⟩

/-- A text that begins as a number does is read as one. -/
theorem value?_number {c : Char} (h : c.isDigit = true ∨ c = '-') (fuel : Nat) (cs : List Char) :
    Tree.value? (fuel + 1) (c :: cs) =
      (numeral? (c :: cs)).map fun (n, rest) => (.number n, rest) := by
  have hne {d : Char} (hd : d.isDigit = false) (hminus : d ≠ '-') : c ≠ d :=
    ne_of_begins_number h hd hminus
  rw [Tree.value?, skip_of_begins (isSeparator_of_begins_number h)]
  split <;> rename_i heq
  · exact absurd (List.cons.inj heq).1 (hne (by decide) (by decide))
  · exact absurd (List.cons.inj heq).1 (hne (by decide) (by decide))
  · exact absurd (List.cons.inj heq).1 (hne (by decide) (by decide))
  · exact absurd (List.cons.inj heq).1 (hne (by decide) (by decide))
  · exact absurd (List.cons.inj heq).1 (hne (by decide) (by decide))
  · exact absurd (List.cons.inj heq).1 (hne (by decide) (by decide))
  · rfl

theorem int (value : Int) : ParsesTo (.int value) (.number (numeral value)) := by
  obtain ⟨c, cs, heq, hc⟩ := toList_toString_eq_cons value
  refine ⟨⟨c, cs, heq, isSeparator_of_begins_number hc, ne_of_begins_number hc rfl (by decide)⟩, ?_⟩
  intro rest fuel hrest h
  obtain ⟨fuel, rfl⟩ := exists_fuel h
  have hnumeral := numeral?_toString value hrest
  change Tree.value? (fuel + 1) ((toString value).toList ++ rest) = _
  rw [heq, List.cons_append] at hnumeral ⊢
  rw [value?_number hc, hnumeral]
  rfl

end ParsesTo

/-! ### Arrays -/

/-- An array whose text begins with an item has the items that are read. -/
theorem value?_bracket {c : Char} (hblank : isSeparator c = false) (hend : c ≠ ']') (fuel : Nat)
    (cs : List Char) :
    Tree.value? (fuel + 1) ('[' :: c :: cs) =
      (Tree.items? fuel (c :: cs)).map fun (items, rest) => (.array items, rest) := by
  have hbracket : skip ('[' :: c :: cs) = '[' :: c :: cs := rfl
  rw [Tree.value?, hbracket]
  simp only [skip_of_begins hblank]
  split
  · next heq => exact absurd (List.cons.inj heq).1 hend
  · rfl

theorem items?_last {fuel : Nat} {cs rest : List Char} {tree : Tree}
    (h : Tree.value? fuel cs = some (tree, ']' :: rest)) :
    Tree.items? (fuel + 1) cs = some ([tree], rest) := by
  rw [Tree.items?, h]
  rfl

theorem items?_comma {fuel : Nat} {cs rest : List Char} {tree : Tree}
    (h : Tree.value? fuel cs = some (tree, ',' :: rest)) :
    Tree.items? (fuel + 1) cs =
      (Tree.items? fuel rest).map fun (items, rest) => (tree :: items, rest) := by
  rw [Tree.items?, h]
  rfl

theorem writtenItems_cons_cons (item next : Json) (items : List Json) :
    writtenItems (item :: next :: items) =
      written item ++ ',' :: writtenItems (next :: items) := rfl

theorem begins_writtenItems {item : Json} {items : List Json} {trees : List Tree}
    (h : List.Forall₂ ParsesTo (item :: items) trees) :
    ∃ c cs, writtenItems (item :: items) = c :: cs ∧ isSeparator c = false ∧ c ≠ ']' := by
  obtain ⟨_, _, hitem, _, rfl⟩ := List.forall₂_cons_left_iff.1 h
  obtain ⟨c, cs, hbegins, hc⟩ := hitem.begins
  cases items with
  | nil => exact ⟨c, cs, hbegins, hc⟩
  | cons next items =>
    refine ⟨c, cs ++ ',' :: writtenItems (next :: items), ?_, hc⟩
    rw [writtenItems_cons_cons, hbegins, List.cons_append]

/-- The items of an array are read one after the other, each with less fuel than the text of
    those that are left asks for. -/
theorem items?_written {item : Json} {items : List Json} {trees : List Tree}
    (h : List.Forall₂ ParsesTo (item :: items) trees) (rest : List Char) {fuel : Nat}
    (hfuel : (writtenItems (item :: items)).length + 1 < fuel) :
    Tree.items? fuel (writtenItems (item :: items) ++ ']' :: rest) = some (trees, rest) := by
  induction items generalizing item trees fuel with
  | nil =>
    obtain ⟨fuel, rfl⟩ := ParsesTo.exists_fuel hfuel
    obtain ⟨tree, _, hitem, hnil, rfl⟩ := List.forall₂_cons_left_iff.1 h
    cases hnil
    rw [writtenItems] at hfuel ⊢
    exact items?_last (hitem.value? _ fuel (ends_cons (by decide) _) (by omega))
  | cons next items ih =>
    obtain ⟨fuel, rfl⟩ := ParsesTo.exists_fuel hfuel
    obtain ⟨tree, trees, hitem, hitems, rfl⟩ := List.forall₂_cons_left_iff.1 h
    have hpos : 0 < (written item).length := hitem.length_pos
    rw [writtenItems_cons_cons, List.length_append, List.length_cons] at hfuel
    rw [writtenItems_cons_cons, List.append_assoc, List.cons_append,
      items?_comma (hitem.value? _ fuel (ends_cons (by decide) _) (by omega)),
      ih hitems (by omega)]
    rfl

/-- An array is read as its items are. -/
theorem ParsesTo.array {items : List Json} {trees : List Tree}
    (h : List.Forall₂ ParsesTo items trees) : ParsesTo (.array items) (.array trees) where
  begins := ⟨'[', _, rfl, rfl, by decide⟩
  value? rest fuel _ hfuel := by
    obtain ⟨fuel, rfl⟩ := exists_fuel hfuel
    rw [written, List.length_append, List.length_cons, List.length_singleton] at hfuel
    rw [written, List.append_assoc, List.singleton_append, List.cons_append]
    cases items with
    | nil => cases h; rfl
    | cons item items =>
      have hitems := items?_written h rest (by omega : _ < fuel)
      obtain ⟨c, cs, hbegins, hblank, hend⟩ := begins_writtenItems h
      rw [hbegins, List.cons_append] at hitems ⊢
      rw [value?_bracket hblank hend, hitems]
      rfl

/-! ### Objects -/

theorem writtenFields_singleton (name : String) (value : Json) :
    writtenFields [(name, value)] = writtenString name ++ ':' :: written value := rfl

theorem writtenFields_cons_cons (name : String) (value : Json) (next : String × Json)
    (fields : List (String × Json)) :
    writtenFields ((name, value) :: next :: fields) =
      writtenString name ++ ':' :: written value ++ ',' :: writtenFields (next :: fields) := rfl

/-- A field is read by its name and its value, and then by what follows. -/
theorem fields?_writtenString (fuel : Nat) (name : String) (cs : List Char) :
    Tree.fields? (fuel + 1) (writtenString name ++ ':' :: cs) =
      match Tree.value? fuel cs with
      | none => none
      | some (tree, cs) =>
        match skip cs with
        | '\x7d' :: cs => some ([(pieces name, tree)], cs)
        | ',' :: cs => (Tree.fields? fuel cs).map fun (fields, rest) =>
          ((pieces name, tree) :: fields, rest)
        | _ => none := by
  have hpieces := pieces?_string name (':' :: cs)
  have hskip : skip (writtenString name ++ ':' :: cs) =
      '"' :: (name.toList.flatMap escapedChar ++ '"' :: ':' :: cs) := by
    rw [writtenString, List.append_assoc]
    rfl
  rw [Tree.fields?, hskip]
  simp only
  rw [hpieces]
  rfl

theorem fields?_last {fuel : Nat} {name : String} {cs rest : List Char} {tree : Tree}
    (h : Tree.value? fuel cs = some (tree, '\x7d' :: rest)) :
    Tree.fields? (fuel + 1) (writtenString name ++ ':' :: cs) =
      some ([(pieces name, tree)], rest) := by
  rw [fields?_writtenString, h]
  rfl

theorem fields?_comma {fuel : Nat} {name : String} {cs rest : List Char} {tree : Tree}
    (h : Tree.value? fuel cs = some (tree, ',' :: rest)) :
    Tree.fields? (fuel + 1) (writtenString name ++ ':' :: cs) =
      (Tree.fields? fuel rest).map fun (fields, rest) =>
        ((pieces name, tree) :: fields, rest) := by
  rw [fields?_writtenString, h]
  rfl

/-- The fields of an object are read one after the other, as the items of an array are. -/
theorem fields?_written {field : String × Json} {fields : List (String × Json)}
    {trees : List (List Piece × Tree)} (h : List.Forall₂ FieldParsesTo (field :: fields) trees)
    (rest : List Char) {fuel : Nat}
    (hfuel : (writtenFields (field :: fields)).length + 1 < fuel) :
    Tree.fields? fuel (writtenFields (field :: fields) ++ '\x7d' :: rest) = some (trees, rest) := by
  induction fields generalizing field trees fuel with
  | nil =>
    obtain ⟨fuel, rfl⟩ := ParsesTo.exists_fuel hfuel
    obtain ⟨name, value⟩ := field
    obtain ⟨⟨_, tree⟩, _, ⟨rfl, hvalue : ParsesTo value tree⟩, hnil, rfl⟩ :=
      List.forall₂_cons_left_iff.1 h
    cases hnil
    rw [writtenFields_singleton, List.length_append, List.length_cons] at hfuel
    rw [writtenFields_singleton, List.append_assoc, List.cons_append]
    exact fields?_last (hvalue.value? _ fuel (ends_cons (by decide) _) (by omega))
  | cons next fields ih =>
    obtain ⟨fuel, rfl⟩ := ParsesTo.exists_fuel hfuel
    obtain ⟨name, value⟩ := field
    obtain ⟨⟨_, tree⟩, trees, ⟨rfl, hvalue : ParsesTo value tree⟩, hfields, rfl⟩ :=
      List.forall₂_cons_left_iff.1 h
    rw [writtenFields_cons_cons] at hfuel ⊢
    simp only [List.length_append, List.length_cons] at hfuel
    rw [List.append_assoc, List.append_assoc, List.cons_append, List.cons_append,
      fields?_comma (hvalue.value? _ fuel (ends_cons (by decide) _) (by omega)),
      ih hfields (by omega)]
    rfl

theorem begins_writtenFields (field : String × Json) (fields : List (String × Json)) :
    ∃ cs, writtenFields (field :: fields) = '"' :: cs := by
  cases fields <;> exact ⟨_, rfl⟩

theorem value?_brace (fuel : Nat) (cs : List Char) :
    Tree.value? (fuel + 1) ('\x7b' :: '"' :: cs) =
      (Tree.fields? fuel ('"' :: cs)).map fun (fields, rest) => (.object fields, rest) := rfl

/-- An object is read as the values of its fields are. -/
theorem ParsesTo.object {fields : List (String × Json)} {trees : List (List Piece × Tree)}
    (h : List.Forall₂ FieldParsesTo fields trees) : ParsesTo (.object fields) (.object trees) where
  begins := ⟨'\x7b', _, rfl, rfl, by decide⟩
  value? rest fuel _ hfuel := by
    obtain ⟨fuel, rfl⟩ := exists_fuel hfuel
    rw [written, List.length_append, List.length_cons, List.length_singleton] at hfuel
    rw [written, List.append_assoc, List.singleton_append, List.cons_append]
    cases fields with
    | nil => cases h; rfl
    | cons field fields =>
      have hfields := fields?_written h rest (by omega : _ < fuel)
      obtain ⟨cs, hbegins⟩ := begins_writtenFields field fields
      rw [hbegins, List.cons_append] at hfields ⊢
      rw [value?_brace, hfields]
      rfl

/-- A text is read as the tree that its value is parsed to. -/
theorem ParsesTo.parse? {j : Json} {tree : Tree} (h : ParsesTo j tree) :
    Tree.parse? (written j) = some tree := by
  have hvalue := h.value? [] ((written j).length + 1) nofun (Nat.lt_succ_self _)
  rw [List.append_nil] at hvalue
  rw [Tree.parse?, hvalue]
  rfl

/-! ## The value of a tree -/

/-- A tree stands for a value if arrays and objects may nest as deep as they do in it, and
    otherwise for nothing. -/
def Stands (j : Json) (tree : Tree) : Prop :=
  ∀ depth, tree.read? depth = if nesting j ≤ depth then some j else none

/-- The tree of a field stands for its name and its value. -/
def FieldStands (field : String × Json) (tree : List Piece × Tree) : Prop :=
  text? tree.1 = some field.1 ∧ Stands field.2 tree.2

/-- Two values that may nest are put together if both of them may. -/
theorem bind_if_le {α β γ : Type} (a b depth : Nat) (x : α) (y : β) (f : α → β → γ) :
    ((if a ≤ depth then some x else none).bind fun u =>
        (if b ≤ depth then some y else none).bind fun v => some (f u v)) =
      if max a b ≤ depth then some (f x y) else none := by
  by_cases ha : a ≤ depth
  · by_cases hb : b ≤ depth
    · rw [if_pos ha, if_pos hb, if_pos (Nat.max_le.2 ⟨ha, hb⟩)]
      rfl
    · rw [if_pos ha, if_neg hb, if_neg fun hmax => hb (Nat.max_le.1 hmax).2]
      rfl
  · rw [if_neg ha, if_neg fun hmax => ha (Nat.max_le.1 hmax).1]
    rfl

theorem readItems?_of_stands {items : List Json} {trees : List Tree}
    (h : List.Forall₂ Stands items trees) (depth : Nat) :
    readItems? depth trees = if nestingOfItems items ≤ depth then some items else none := by
  induction h with
  | nil => rfl
  | cons hitem _ ih =>
    rw [readItems?, hitem depth, ih]
    exact bind_if_le _ _ depth _ _ List.cons

theorem readFields?_of_stands {fields : List (String × Json)} {trees : List (List Piece × Tree)}
    (h : List.Forall₂ FieldStands fields trees) (depth : Nat) :
    readFields? depth trees = if nestingOfFields fields ≤ depth then some fields else none := by
  induction h with
  | nil => rfl
  | @cons field tree _ _ hfield _ ih =>
    obtain ⟨name, value⟩ := field
    obtain ⟨pieces, tree⟩ := tree
    obtain ⟨hname, hvalue⟩ := hfield
    rw [readFields?, hname, hvalue depth, ih]
    exact bind_if_le _ _ depth _ _ fun value fields => (name, value) :: fields

/-- Fields of names of their own are those of an object. -/
theorem ofPairs_of_nodup {fields : List (String × Json)} (h : (fields.map (·.1)).Nodup) :
    ofPairs fields = fields := by
  have hinsert (name : String) (value : Json) (set : List (String × Json))
      (hname : name ∉ set.map (·.1)) : insert name value set = set ++ [(name, value)] := by
    induction set with
    | nil => rfl
    | cons first set ih =>
      rw [List.map_cons, List.mem_cons, not_or] at hname
      rw [insert, if_neg (Ne.symm hname.1), ih hname.2, List.cons_append]
  have hfold (set fields : List (String × Json)) (hnames : ((set ++ fields).map (·.1)).Nodup) :
      fields.foldl (fun set field => insert field.1 field.2 set) set = set ++ fields := by
    induction fields generalizing set with
    | nil => rw [List.foldl_nil, List.append_nil]
    | cons field fields ih =>
      have hnew : field.1 ∉ set.map (·.1) := by
        rw [List.map_append, List.nodup_append] at hnames
        exact fun hmem => hnames.2.2 _ hmem _ List.mem_cons_self rfl
      rw [List.foldl_cons, hinsert _ _ _ hnew, ih _ (by simpa using hnames), List.append_assoc]
      rfl
  exact hfold [] fields h

namespace Stands

/-- Where nothing nests, a tree stands for its value at any depth. -/
theorem scalar {j : Json} {tree : Tree} (hnesting : nesting j = 0)
    (h : ∀ depth, tree.read? depth = some j) : Stands j tree := by
  intro depth
  rw [h, hnesting, if_pos (Nat.zero_le depth)]

theorem array {items : List Json} {trees : List Tree} (h : List.Forall₂ Stands items trees) :
    Stands (.array items) (.array trees) := by
  intro depth
  cases depth with
  | zero => rfl
  | succ depth =>
    rw [Tree.read?, if_neg (Nat.succ_ne_zero depth), Nat.add_sub_cancel,
      readItems?_of_stands h, nesting]
    simp only [Nat.add_le_add_iff_right]
    split <;> rfl

theorem object {fields : List (String × Json)} {trees : List (List Piece × Tree)}
    (hnames : (fields.map (·.1)).Nodup) (h : List.Forall₂ FieldStands fields trees) :
    Stands (.object fields) (.object trees) := by
  intro depth
  cases depth with
  | zero => rfl
  | succ depth =>
    rw [Tree.read?, if_neg (Nat.succ_ne_zero depth), Nat.add_sub_cancel,
      readFields?_of_stands h, nesting]
    simp only [Nat.add_le_add_iff_right]
    split
    · rw [Option.map_some, ofPairs_of_nodup hnames]
    · rfl

end Stands

/-! ## Plain values -/

/-- If each element is related to some other one, a list is to a list. -/
theorem exists_forall₂ {α β : Type} {p q : α → β → Prop} {as : List α}
    (h : ∀ a ∈ as, ∃ b, p a b ∧ q a b) : ∃ bs, List.Forall₂ p as bs ∧ List.Forall₂ q as bs := by
  induction as with
  | nil => exact ⟨[], .nil, .nil⟩
  | cons a as ih =>
    rw [List.forall_mem_cons] at h
    obtain ⟨b, hp, hq⟩ := h.1
    obtain ⟨bs, hps, hqs⟩ := ih h.2
    exact ⟨b :: bs, .cons hp hps, .cons hq hqs⟩

/-- The text of a plain value is read as a tree that stands for it. -/
theorem Plain.exists_tree {j : Json} (h : Plain j) : ∃ tree, ParsesTo j tree ∧ Stands j tree := by
  induction h with
  | null => exact ⟨_, .null, .scalar rfl fun _ => rfl⟩
  | bool value => exact ⟨_, .bool value, .scalar rfl fun _ => rfl⟩
  | int hle hlt => exact ⟨_, .int _, .scalar rfl fun _ => read?_numeral hle hlt⟩
  | string value =>
    refine ⟨_, .string value, .scalar rfl fun depth => ?_⟩
    rw [Tree.read?, text?_pieces]
    rfl
  | array _ ih =>
    obtain ⟨trees, hparses, hstands⟩ := exists_forall₂ ih
    exact ⟨_, .array hparses, .array hstands⟩
  | @object fields hnames _ ih =>
    have hfields : ∀ field ∈ fields, ∃ tree, FieldParsesTo field tree ∧ FieldStands field tree := by
      intro field hfield
      obtain ⟨tree, hparses, hstands⟩ := ih field hfield
      exact ⟨(pieces field.1, tree), ⟨rfl, hparses⟩, text?_pieces _, hstands⟩
    obtain ⟨trees, hparses, hstands⟩ := exists_forall₂ hfields
    exact ⟨_, .object hparses, .object hnames hstands⟩

/-- A plain value is read back from its text, unless it nests too deep. -/
theorem Plain.parse?_compact {j : Json} (h : Plain j) :
    parse? j.compact = if nesting j ≤ maxDepth then some j else none := by
  obtain ⟨tree, hparses, hstands⟩ := h.exists_tree
  rw [parse?, compact, String.toList_ofList, hparses.parse?, Option.bind_some, hstands]

end ShadowCatalog.Json
