import Mathlib.Algebra.Ring.Int.Defs
import Mathlib.Algebra.Ring.Nat
import Mathlib.Data.List.Basic
import ShadowCatalog.Json.Printer
import ShadowCatalog.Json.Reader

/-!
# Strings and integers in JSON

A string that is written is read back, whatever its characters: each of them is written as
one piece (`piece`), which is the one that is read (`pieces?_writtenString`) and stands for
the character (`text?_pieces`).

An integer is written by its decimal digits. As long as nothing follows that goes on with
them (`Ends`), they are read as a number without point and exponent (`numeral?_written`),
and this one stands for the integer if it has 64 bits, with a sign or without
(`read?_numeral`).
-/

namespace ShadowCatalog.Json

/-! ## Strings -/

/-- The piece that a character is written by: a control that has no letter of its own is
    written by its number. -/
def piece (c : Char) : Piece :=
  if c.toNat < 0x20 ∧ c ≠ '\n' ∧ c ≠ '\r' ∧ c ≠ '\t' ∧ c.toNat ≠ 0x08 ∧ c.toNat ≠ 0x0C then
    .unit c.toNat
  else .char c

/-- The pieces of a string. -/
def pieces (s : String) : List Piece := s.toList.map piece

/-- A control is written by four hexadecimal digits, which are those of its number. -/
theorem hexDigits4_control : ∀ n < 0x20,
    hexDigits4 n = ['0', '0', Nat.digitChar (n / 16), Nat.digitChar (n % 16)] ∧
      hexUnit? '0' '0' (Nat.digitChar (n / 16)) (Nat.digitChar (n % 16)) = some n := by
  decide

theorem pieces?_unit {n : Nat} (h : n < 0x20) (cs : List Char) :
    pieces? ('\\' :: 'u' :: hexDigits4 n ++ cs) =
      (pieces? cs).map fun (ps, rest) => (.unit n :: ps, rest) := by
  obtain ⟨hdigits, hunit⟩ := hexDigits4_control n h
  rw [hdigits, List.cons_append, List.cons_append, List.cons_append, List.cons_append,
    List.cons_append, List.cons_append, List.nil_append, pieces?, hunit]
  cases pieces? cs <;> rfl

theorem pieces?_escape {e c : Char} (he : e ≠ 'u') (h : escape? e = some c) (cs : List Char) :
    pieces? ('\\' :: e :: cs) = (pieces? cs).map fun (ps, rest) => (.char c :: ps, rest) := by
  rw [pieces?, h]
  · cases pieces? cs <;> rfl
  · rintro _ _ _ _ _ heq
    exact absurd heq he

theorem pieces?_plain {c : Char} (hquote : c ≠ '"') (hslash : c ≠ '\\') (hcontrol : 0x20 ≤ c.toNat)
    (cs : List Char) :
    pieces? (c :: cs) = (pieces? cs).map fun (ps, rest) => (.char c :: ps, rest) := by
  have hplain : ¬(c.toNat < 0x20 ∨ c = '\\') := by
    rintro (h | h)
    · omega
    · exact hslash h
  rw [pieces?, if_neg hplain]
  · cases pieces? cs <;> rfl
  all_goals simp_all

/-- Each character is written as one piece. -/
theorem pieces?_escapedChar (c : Char) (cs : List Char) :
    pieces? (escapedChar c ++ cs) = (pieces? cs).map fun (ps, rest) => (piece c :: ps, rest) := by
  have hletter {e : Char} (he : e ≠ 'u') (hc : escape? e = some c) (hpiece : piece c = .char c) :
      pieces? (['\\', e] ++ cs) = (pieces? cs).map fun (ps, rest) => (piece c :: ps, rest) := by
    rw [hpiece]
    exact pieces?_escape he hc cs
  unfold escapedChar
  split
  · next h => subst h; exact hletter (by decide) rfl rfl
  split
  · next h => subst h; exact hletter (by decide) rfl rfl
  split
  · next h => subst h; exact hletter (by decide) rfl rfl
  split
  · next h => subst h; exact hletter (by decide) rfl rfl
  split
  · next h => subst h; exact hletter (by decide) rfl rfl
  split
  · next h =>
    obtain rfl : c = Char.ofNat 0x08 := by rw [← h, Char.ofNat_toNat]
    exact hletter (by decide) rfl rfl
  split
  · next h =>
    obtain rfl : c = Char.ofNat 0x0C := by rw [← h, Char.ofNat_toNat]
    exact hletter (by decide) rfl rfl
  split
  · next hn hr ht hb hf h =>
    have hpiece : piece c = .unit c.toNat := if_pos ⟨h, hn, hr, ht, hb, hf⟩
    rw [hpiece]
    exact pieces?_unit h cs
  · next hquote hslash _ _ _ _ _ h =>
    have hpiece : piece c = .char c := if_neg fun hcontrol => h hcontrol.1
    rw [hpiece]
    exact pieces?_plain hquote hslash (Nat.not_lt.1 h) cs

/-- A string is read up to its closing quote. -/
theorem pieces?_string (s : String) (rest : List Char) :
    pieces? (s.toList.flatMap escapedChar ++ '"' :: rest) = some (pieces s, rest) := by
  rw [pieces]
  induction s.toList with
  | nil => rfl
  | cons c cs ih => rw [List.flatMap_cons, List.append_assoc, pieces?_escapedChar, ih]; rfl

theorem characters?_unit {n : Nat} (h : n < 0xD800) (ps : List Piece) :
    characters? (.unit n :: ps) = (characters? ps).map (Char.ofNat n :: ·) := by
  have hfirst : ¬(0xD800 ≤ n ∧ n < 0xDC00) := by omega
  have hsecond : ¬(0xDC00 ≤ n ∧ n < 0xE000) := by omega
  conv_lhs => unfold characters?
  simp only [if_neg hfirst, if_neg hsecond]

/-- The pieces of a string stand for it, as no control is half of a character. -/
theorem text?_pieces (s : String) : text? (pieces s) = some s := by
  have hcharacters (cs : List Char) : characters? (cs.map piece) = some cs := by
    induction cs with
    | nil => rfl
    | cons c cs ih =>
      rw [List.map_cons, piece]
      split
      · next h => rw [characters?_unit (by omega), ih, Char.ofNat_toNat]; rfl
      · rw [characters?, ih]; rfl
  rw [text?, pieces, hcharacters, Option.map_some, String.ofList_toList]

/-! ## Integers -/

/-- What follows does not go on with a number. -/
def Ends (rest : List Char) : Prop :=
  ∀ c ∈ rest.head?, c.isDigit = false ∧ c ≠ '.' ∧ c ≠ 'e' ∧ c ≠ 'E'

/-- The digits of a number. -/
def decimals (n : Nat) : List Nat := (Nat.toDigits 10 n).map fun c => c.toNat - '0'.toNat

/-- An integer as a number without point and exponent. -/
def numeral (n : Int) : Numeral := ⟨n < 0, decimals n.natAbs, [], none, false⟩

theorem digitRun_append {ds rest : List Char} (hds : ∀ c ∈ ds, c.isDigit = true)
    (hrest : ∀ c ∈ rest.head?, c.isDigit = false) :
    digitRun (ds ++ rest) = (ds.map fun c => c.toNat - '0'.toNat, rest) := by
  induction ds with
  | nil =>
    cases rest with
    | nil => rfl
    | cons c cs =>
      have hc := hrest c rfl
      rw [List.nil_append, digitRun, hc]
      rfl
  | cons c ds ih =>
    rw [List.forall_mem_cons] at hds
    rw [List.cons_append, digitRun, if_pos hds.1, ih hds.2]
    rfl

theorem isDigit_of_mem_toDigits {n : Nat} : ∀ c ∈ Nat.toDigits 10 n, c.isDigit = true :=
  fun _ hc => Nat.isDigit_of_mem_toDigits (by decide) (by decide) hc

/-- A number but zero is written with another digit than zero in front. -/
theorem toDigits_eq_cons {n : Nat} (h : 0 < n) :
    ∃ c cs, Nat.toDigits 10 n = c :: cs ∧ c.toNat - '0'.toNat ≠ 0 := by
  induction n using Nat.strongRecOn with
  | ind n ih =>
    rcases Nat.lt_or_ge n 10 with hlt | hge
    · have hdigit : ∀ d < 10, 0 < d → (Nat.digitChar d).toNat - '0'.toNat ≠ 0 := by decide
      exact ⟨_, [], Nat.toDigits_of_lt_base hlt, hdigit n hlt h⟩
    · obtain ⟨c, cs, heq, hc⟩ := ih (n / 10) (by omega) (by omega)
      refine ⟨c, cs ++ [Nat.digitChar (n % 10)], ?_, hc⟩
      rw [Nat.toDigits_of_base_le (by decide) hge, heq, List.cons_append]

/-- The digits of a number stand before the point. Only zero has a zero in front. -/
theorem whole?_toDigits (n : Nat) {rest : List Char} (hrest : Ends rest) :
    whole? (Nat.toDigits 10 n ++ rest) = some (decimals n, rest) := by
  have hrun : digitRun (Nat.toDigits 10 n ++ rest) = (decimals n, rest) :=
    digitRun_append isDigit_of_mem_toDigits fun c hc => (hrest c hc).1
  rw [whole?, hrun]
  rcases Nat.eq_zero_or_pos n with rfl | hpos
  · rfl
  · obtain ⟨c, cs, heq, hc⟩ := toDigits_eq_cons hpos
    rw [decimals, heq, List.map_cons]
    split
    · next hnil => cases hnil
    · next hzero => exact absurd (List.cons.inj (Prod.mk.inj hzero).1).1 hc
    · next hpair => cases hpair; rfl

theorem fraction?_of_ends {rest : List Char} (hrest : Ends rest) :
    fraction? rest = some ([], rest) := by
  unfold fraction?
  split
  · exact absurd rfl (hrest _ rfl).2.1
  · rfl

theorem exponent?_of_ends {rest : List Char} (hrest : Ends rest) :
    exponent? rest = some (none, rest) := by
  cases rest with
  | nil => rfl
  | cons c cs =>
    obtain ⟨-, -, he, hE⟩ := hrest c rfl
    exact if_neg (not_or.2 ⟨he, hE⟩)

theorem unsigned?_toDigits (negative : Bool) (n : Nat) {rest : List Char} (hrest : Ends rest) :
    unsigned? negative (Nat.toDigits 10 n ++ rest) =
      some (⟨negative, decimals n, [], none, false⟩, rest) := by
  rw [unsigned?, whole?_toDigits n hrest]
  change ((fraction? rest).bind fun pair => _) = _
  rw [fraction?_of_ends hrest]
  change ((exponent? rest).bind fun pair => _) = _
  rw [exponent?_of_ends hrest]
  rfl

theorem toList_toString (n : Int) :
    (toString n).toList =
      if n < 0 then '-' :: Nat.toDigits 10 n.natAbs else Nat.toDigits 10 n.natAbs := by
  cases n with
  | ofNat m => exact Nat.toList_repr
  | negSucc m =>
    rw [if_pos (Int.negSucc_lt_zero m), Int.toString_eq_repr, Int.repr, String.toList_append,
      Nat.toList_repr]
    rfl

/-- An integer is read by its digits. -/
theorem numeral?_toString (n : Int) {rest : List Char} (hrest : Ends rest) :
    numeral? ((toString n).toList ++ rest) = some (numeral n, rest) := by
  rw [toList_toString, numeral]
  split
  · next hneg =>
    rw [decide_eq_true hneg]
    exact unsigned?_toDigits true n.natAbs hrest
  · next hneg =>
    rw [decide_eq_false hneg]
    unfold numeral?
    split
    · next cs heq =>
      -- The first character is a digit.
      obtain ⟨c, ds, hcons⟩ := List.exists_cons_of_ne_nil (Nat.toDigits_ne_nil (n := n.natAbs))
      have hdigit := isDigit_of_mem_toDigits c (hcons ▸ List.mem_cons_self)
      rw [hcons, List.cons_append] at heq
      rw [(List.cons.inj heq).1] at hdigit
      exact absurd hdigit (by decide)
    · exact unsigned?_toDigits false n.natAbs hrest

/-- Digits that fit into 64 bits are all taken. -/
theorem significand_eq {n : Nat} {ds : List Nat}
    (h : ds.foldl (fun m d => m * 10 + d) n < 2 ^ 64) :
    significand n ds = (ds.foldl (fun m d => m * 10 + d) n, 0) := by
  have hle (n : Nat) (ds : List Nat) : n ≤ ds.foldl (fun m d => m * 10 + d) n := by
    induction ds generalizing n with
    | nil => exact Nat.le_refl n
    | cons d ds ih => exact Nat.le_trans (by omega) (ih (n * 10 + d))
  induction ds generalizing n with
  | nil => rfl
  | cons d ds ih =>
    have hfits : n * 10 + d < Nat.pow 2 64 := Nat.lt_of_le_of_lt (hle _ ds) h
    rw [significand, if_pos hfits, ih h, List.foldl_cons]

theorem foldl_decimals (n : Nat) : (decimals n).foldl (fun m d => m * 10 + d) 0 = n := by
  have hvalue : Nat.ofDigitChars 10 (Nat.toDigits 10 n) 0 = n := Nat.ofDigitChars_ten_toDigits
  rw [decimals, List.foldl_map]
  simpa only [Nat.ofDigitChars_eq_foldl, Nat.mul_comm] using hvalue

/-- An integer of 64 bits, with a sign or without, is read as it is. -/
theorem read?_numeral {n : Int} (hle : -2 ^ 63 ≤ n) (hlt : n < 2 ^ 64) :
    (numeral n).read? = some (.int n) := by
  have hvalue := foldl_decimals n.natAbs
  have hsignificand : significand 0 (decimals n.natAbs) = (n.natAbs, 0) := by
    rw [significand_eq (by omega), hvalue]
  simp only [Numeral.read?, numeral, hsignificand, bne_self_eq_false, Bool.or_self,
    Bool.false_eq_true, if_false]
  by_cases hneg : n < 0
  · have hrange : 0 < n.natAbs ∧ n.natAbs ≤ Nat.pow 2 63 := ⟨by omega, by change _ ≤ 2 ^ 63; omega⟩
    rw [decide_eq_true hneg, if_neg (by decide), if_pos hrange]
    exact congrArg (some ∘ Json.int) (by omega)
  · rw [decide_eq_false hneg, if_pos (by decide)]
    exact congrArg (some ∘ Json.int) (by omega)

end ShadowCatalog.Json
