/-!
# Letters and pieces of text

Comparison that ignores the case of the ASCII letters, suffixes, and padding.
-/

namespace ShadowCatalog.Text

/-- Two texts are the same up to the case of the letters `A` to `Z`. No other
    character has a case here. -/
def sameLetters (a b : List Char) : Bool :=
  a.map Char.toLower == b.map Char.toLower

/-- The text before `suffix`, if the text ends with it. -/
def dropSuffix? (suffix cs : List Char) : Option (List Char) :=
  if suffix.isSuffixOf cs then some (cs.take (cs.length - suffix.length)) else none

/-- The decimal digits of `n`, with zeros in front up to `width` digits. -/
def paddedDigits (width n : Nat) : List Char :=
  let digits := Nat.toDigits 10 n
  List.replicate (width - digits.length) '0' ++ digits

/-- The text before the first `c` and the text after it. -/
def splitAt? (c : Char) : List Char → Option (List Char × List Char)
  | [] => none
  | d :: ds =>
    if d = c then some ([], ds)
    else (splitAt? c ds).map fun (before, after) => (d :: before, after)

/-- A cut text is put together again around the character at which it was cut. -/
theorem splitAt?_eq_some {c : Char} {cs before after : List Char}
    (h : splitAt? c cs = some (before, after)) : before ++ c :: after = cs := by
  induction cs generalizing before with
  | nil => exact nomatch h
  | cons d ds ih =>
    simp only [splitAt?] at h
    split at h
    · next hd => cases h; rw [hd]; rfl
    · obtain ⟨⟨left, right⟩, hs, he⟩ := Option.map_eq_some_iff.1 h
      cases he
      rw [List.cons_append, ih hs]

end ShadowCatalog.Text
