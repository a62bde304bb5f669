import Mathlib.Algebra.Ring.Int.Defs
import ShadowCatalog.Text.Blank
import ShadowCatalog.Text.Integer

/-!
# What decimal integers are written by

A text *writes* an integer if it is made of ASCII digits with that value in base ten, at
least one of them, after an optional sign (`WritesInteger`). Leading zeros are allowed, so
an integer is written by many texts, `-0` among those for zero; the integer that a text
writes is the one that is read (`integer?_eq_some_iff`). An integer of `bits` bits is read
from the texts that write one in range (`signed?_eq_some_iff`).

The usual decimal text of an integer writes it (`writesInteger_toString`).
-/

namespace ShadowCatalog.Text

/-- A text of one or more ASCII digits, with its value in base ten. -/
structure WritesNatural (cs : List Char) (n : Nat) : Prop where
  ne_nil : cs ≠ []
  isDigit : ∀ c ∈ cs, c.isDigit = true
  value : Nat.ofDigitChars 10 cs 0 = n

/-- A text of digits after an optional sign, with its value. -/
inductive WritesInteger : List Char → Int → Prop
  | unsigned {cs : List Char} {n : Nat} : WritesNatural cs n → WritesInteger cs n
  | plus {cs : List Char} {n : Nat} : WritesNatural cs n → WritesInteger ('+' :: cs) n
  | minus {cs : List Char} {n : Nat} : WritesNatural cs n → WritesInteger ('-' :: cs) (-n)

/-- Digit by digit, the value is that of the digits read so far and the ones to come. -/
theorem continueDigits_eq_some_iff {cs : List Char} {value n : Nat} :
    continueDigits value cs = some n ↔
      (∀ c ∈ cs, c.isDigit = true) ∧ Nat.ofDigitChars 10 cs value = n := by
  induction cs generalizing value with
  | nil => rw [continueDigits, Nat.ofDigitChars_nil, Option.some.injEq]; simp
  | cons c cs ih =>
    rw [continueDigits, List.forall_mem_cons, Nat.ofDigitChars_cons, digit?]
    by_cases hc : c.isDigit = true
    · rw [if_pos hc]
      simp only
      rw [ih, Nat.mul_comm value 10, and_assoc, and_iff_right hc]
    · rw [if_neg hc]
      simp [hc]

theorem digits?_eq_some_iff {cs : List Char} {n : Nat} :
    digits? cs = some n ↔ WritesNatural cs n := by
  cases cs with
  | nil => exact ⟨fun h => by simp [digits?] at h, fun h => absurd rfl h.ne_nil⟩
  | cons c cs =>
    rw [digits?, continueDigits_eq_some_iff]
    exact ⟨fun h => ⟨List.cons_ne_nil c cs, h.1, h.2⟩, fun h => ⟨h.isDigit, h.value⟩⟩

/-- A text that starts with a sign is not made of digits. -/
theorem not_writesNatural_cons {sign : Char} (hsign : sign.isDigit = false) {cs : List Char}
    {n : Nat} : ¬WritesNatural (sign :: cs) n := fun h => by
  rw [h.isDigit sign List.mem_cons_self] at hsign
  exact absurd hsign (by decide)

theorem integer?_minus (cs : List Char) :
    integer? ('-' :: cs) = (digits? cs).map fun n : Nat => -(n : Int) := by
  rw [integer?]
  cases digits? cs <;> rfl

theorem integer?_plus (cs : List Char) :
    integer? ('+' :: cs) = (digits? cs).map fun n : Nat => (n : Int) := by
  rw [integer?]
  cases digits? cs <;> rfl

theorem integer?_unsigned {cs : List Char} (hminus : ∀ ds, cs ≠ '-' :: ds)
    (hplus : ∀ ds, cs ≠ '+' :: ds) :
    integer? cs = (digits? cs).map fun n : Nat => (n : Int) := by
  unfold integer?
  split
  · exact absurd rfl (hminus _)
  · exact absurd rfl (hplus _)
  · cases digits? cs <;> rfl

/-- What is read is what is written. -/
theorem integer?_eq_some_iff {cs : List Char} {n : Int} :
    integer? cs = some n ↔ WritesInteger cs n := by
  constructor
  · intro h
    by_cases hminus : ∃ ds, cs = '-' :: ds
    · obtain ⟨ds, rfl⟩ := hminus
      rw [integer?_minus] at h
      obtain ⟨m, hm, rfl⟩ := Option.map_eq_some_iff.1 h
      exact .minus (digits?_eq_some_iff.1 hm)
    by_cases hplus : ∃ ds, cs = '+' :: ds
    · obtain ⟨ds, rfl⟩ := hplus
      rw [integer?_plus] at h
      obtain ⟨m, hm, rfl⟩ := Option.map_eq_some_iff.1 h
      exact .plus (digits?_eq_some_iff.1 hm)
    · rw [integer?_unsigned (not_exists.1 hminus) (not_exists.1 hplus)] at h
      obtain ⟨m, hm, rfl⟩ := Option.map_eq_some_iff.1 h
      exact .unsigned (digits?_eq_some_iff.1 hm)
  · intro h
    cases h with
    | unsigned h =>
      have hminus ds : cs ≠ '-' :: ds := by
        rintro rfl
        exact not_writesNatural_cons (by decide) h
      have hplus ds : cs ≠ '+' :: ds := by
        rintro rfl
        exact not_writesNatural_cons (by decide) h
      rw [integer?_unsigned hminus hplus, digits?_eq_some_iff.2 h, Option.map_some]
    | plus h => rw [integer?_plus, digits?_eq_some_iff.2 h, Option.map_some]
    | minus h => rw [integer?_minus, digits?_eq_some_iff.2 h, Option.map_some]

theorem fitsSigned_iff {bits : Nat} {n : Int} :
    fitsSigned bits n = true ↔ -2 ^ (bits - 1) ≤ n ∧ n < 2 ^ (bits - 1) := by
  simp [fitsSigned]

/-- An integer of `bits` bits is read if one is written and is in range. -/
theorem signed?_eq_some_iff {bits : Nat} {cs : List Char} {n : Int} :
    signed? bits cs = some n ↔
      WritesInteger cs n ∧ -2 ^ (bits - 1) ≤ n ∧ n < 2 ^ (bits - 1) := by
  rw [signed?, Option.filter_eq_some_iff, integer?_eq_some_iff, fitsSigned_iff]

/-! ## The usual text -/

theorem writesNatural_repr (n : Nat) : WritesNatural n.repr.toList n where
  ne_nil := by rw [Nat.toList_repr]; exact Nat.toDigits_ne_nil
  isDigit c hc := by
    rw [Nat.toList_repr] at hc
    exact Nat.isDigit_of_mem_toDigits (by decide) (by decide) hc
  value := by rw [Nat.toList_repr, Nat.ofDigitChars_ten_toDigits]

/-- The usual text of an integer writes it. -/
theorem writesInteger_toString (n : Int) : WritesInteger (toString n).toList n := by
  rw [Int.toString_eq_repr]
  cases n with
  | ofNat m => exact .unsigned (writesNatural_repr m)
  | negSucc m =>
    have htext : (Int.negSucc m).repr.toList = '-' :: (m + 1).repr.toList := by
      rw [Int.repr, String.toList_append]
      rfl
    rw [htext]
    exact .minus (writesNatural_repr (m + 1))

theorem isBlank_of_isDigit {c : Char} (hc : c.isDigit = true) : isBlank c = false := by
  have hrange : 48 ≤ c.toNat ∧ c.toNat ≤ 57 := by
    simpa [Char.isDigit, UInt32.le_iff_toNat_le] using hc
  simp only [isBlank, Bool.or_eq_false_iff, Bool.and_eq_false_iff, decide_eq_false_iff_not,
    beq_eq_false_iff_ne]
  omega

/-- Digits and signs are not blank. -/
theorem WritesInteger.isBlank {cs : List Char} {n : Int} (h : WritesInteger cs n) :
    ∀ c ∈ cs, isBlank c = false := by
  have hdigits {ds : List Char} {m : Nat} (hds : WritesNatural ds m) :
      ∀ c ∈ ds, Text.isBlank c = false := fun c hc => isBlank_of_isDigit (hds.isDigit c hc)
  cases h with
  | unsigned h => exact hdigits h
  | plus h => exact List.forall_mem_cons.2 ⟨by decide, hdigits h⟩
  | minus h => exact List.forall_mem_cons.2 ⟨by decide, hdigits h⟩

end ShadowCatalog.Text
