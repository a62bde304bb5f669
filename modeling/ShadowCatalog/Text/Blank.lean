/-!
# Blank characters

The characters with the Unicode property `White_Space`, and the two ways text
is cut along them:

* `trim` removes the blanks at both ends;
* `words` are the maximal runs of other characters, in order.

Both are stated on lists of characters; `trimmed` is `trim` on strings.
-/

namespace ShadowCatalog.Text

/-- The characters with the Unicode property `White_Space`. -/
def isBlank (c : Char) : Bool :=
  let n := c.toNat
  (0x09 ≤ n && n ≤ 0x0D) || n == 0x20 || n == 0x85 || n == 0xA0 || n == 0x1680 ||
    (0x2000 ≤ n && n ≤ 0x200A) || n == 0x2028 || n == 0x2029 || n == 0x202F || n == 0x205F ||
    n == 0x3000

/-- A list without its longest tail of elements satisfying `p`. -/
def dropEndWhile {α : Type} (p : α → Bool) : List α → List α
  | [] => []
  | a :: as =>
    match dropEndWhile p as with
    | [] => if p a then [] else [a]
    | b :: bs => a :: b :: bs

/-- The text without the blanks at its two ends. -/
def trim (cs : List Char) : List Char :=
  dropEndWhile isBlank (cs.dropWhile isBlank)

/-- `trim` on strings. -/
def trimmed (s : String) : String :=
  String.ofList (trim s.toList)

/-- The run of other characters at the start of the text, and the words after it. -/
def leadingWord : List Char → List Char × List (List Char)
  | [] => ([], [])
  | c :: cs =>
    let (word, later) := leadingWord cs
    if isBlank c then ([], if word.isEmpty then later else word :: later)
    else (c :: word, later)

/-- The maximal runs of characters that are not blank, in order. -/
def words (cs : List Char) : List (List Char) :=
  let (word, later) := leadingWord cs
  if word.isEmpty then later else word :: later

end ShadowCatalog.Text
