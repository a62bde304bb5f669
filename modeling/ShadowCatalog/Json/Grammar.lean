/-!
# The grammar of JSON

A text of JSON and the tree it has, before anything is said about what its
numbers and strings stand for: digits are digits, and an escape by number is a
UTF-16 unit, paired or not.

* `Tree.parse?` reads a whole text, with blanks around it;
* `Tree.value?` reads one value and returns the text after it.
-/

namespace ShadowCatalog.Json

/-- A piece of a string. -/
inductive Piece
  /-- A character, escaped by a letter or not. -/
  | char (c : Char)
  /-- A UTF-16 unit, escaped by its number. -/
  | unit (n : Nat)
  deriving DecidableEq, Repr

/-- The digits of a number. -/
structure Numeral where
  /-- A minus sign stands in front. -/
  negative : Bool
  /-- The digits before the point. -/
  whole : List Nat
  /-- The digits after the point. -/
  fraction : List Nat
  /-- The sign (`true` for minus) and the digits of the exponent. -/
  exponent : Option (Bool × List Nat)
  /-- A point or an exponent is written. -/
  isDecimal : Bool
  deriving DecidableEq, Repr

/-- A text of JSON as a tree. -/
inductive Tree
  | null
  | bool (value : Bool)
  | number (n : Numeral)
  | string (pieces : List Piece)
  | array (items : List Tree)
  | object (fields : List (List Piece × Tree))

/-- The blanks that may stand between the parts of a text. -/
def isSeparator (c : Char) : Bool :=
  c = ' ' || c = '\n' || c = '\t' || c = '\r'

/-- The text after the blanks at its start. -/
def skip (cs : List Char) : List Char := cs.dropWhile isSeparator

/-! ## Strings -/

/-- The value of a hexadecimal digit. -/
def hexDigit? (c : Char) : Option Nat :=
  if c.isDigit then some (c.toNat - '0'.toNat)
  else if 'a' ≤ c ∧ c ≤ 'f' then some (c.toNat - 'a'.toNat + 10)
  else if 'A' ≤ c ∧ c ≤ 'F' then some (c.toNat - 'A'.toNat + 10)
  else none

/-- The UTF-16 unit of four hexadecimal digits. -/
def hexUnit? (a b c d : Char) : Option Nat := do
  let a ← hexDigit? a
  let b ← hexDigit? b
  let c ← hexDigit? c
  let d ← hexDigit? d
  return ((a * 16 + b) * 16 + c) * 16 + d

/-- The character that a letter stands for after a backslash. -/
def escape? (c : Char) : Option Char :=
  if c = '"' ∨ c = '\\' ∨ c = '/' then some c
  else if c = 'b' then some (Char.ofNat 0x08)
  else if c = 'f' then some (Char.ofNat 0x0C)
  else if c = 'n' then some '\n'
  else if c = 'r' then some '\r'
  else if c = 't' then some '\t'
  else none

/-- The pieces of a string up to its closing quote, and the text after it. -/
def pieces? : List Char → Option (List Piece × List Char)
  | [] => none
  | '"' :: cs => some ([], cs)
  | '\\' :: 'u' :: a :: b :: c :: d :: cs => do
    let n ← hexUnit? a b c d
    let (ps, rest) ← pieces? cs
    return (.unit n :: ps, rest)
  | '\\' :: e :: cs => do
    let c ← escape? e
    let (ps, rest) ← pieces? cs
    return (.char c :: ps, rest)
  | c :: cs =>
    if c.toNat < 0x20 ∨ c = '\\' then none
    else do
      let (ps, rest) ← pieces? cs
      return (.char c :: ps, rest)

/-! ## Numbers -/

/-- The digits at the start of a text, and the text after them. -/
def digitRun : List Char → List Nat × List Char
  | [] => ([], [])
  | c :: cs =>
    if c.isDigit then
      let (ds, rest) := digitRun cs
      ((c.toNat - '0'.toNat) :: ds, rest)
    else ([], c :: cs)

/-- The digits before the point: one zero, or digits that begin with another. -/
def whole? (cs : List Char) : Option (List Nat × List Char) :=
  match digitRun cs with
  | ([], _) => none
  | (0 :: _ :: _, _) => none
  | (ds, rest) => some (ds, rest)

/-- The digits after the point, if there is one. -/
def fraction? : List Char → Option (List Nat × List Char)
  | '.' :: cs =>
    match digitRun cs with
    | ([], _) => none
    | (ds, rest) => some (ds, rest)
  | cs => some ([], cs)

/-- The sign and the digits of an exponent. -/
def exponentDigits? (negative : Bool) (cs : List Char) : Option ((Bool × List Nat) × List Char) :=
  match digitRun cs with
  | ([], _) => none
  | (ds, rest) => some ((negative, ds), rest)

/-- The exponent, if there is one. -/
def exponent? : List Char → Option (Option (Bool × List Nat) × List Char)
  | c :: cs =>
    if c = 'e' ∨ c = 'E' then
      match cs with
      | '+' :: cs => (exponentDigits? false cs).map fun (e, rest) => (some e, rest)
      | '-' :: cs => (exponentDigits? true cs).map fun (e, rest) => (some e, rest)
      | cs => (exponentDigits? false cs).map fun (e, rest) => (some e, rest)
    else some (none, c :: cs)
  | [] => some (none, [])

/-- The number at the start of a text, after its sign. -/
def unsigned? (negative : Bool) (cs : List Char) : Option (Numeral × List Char) := do
  let (whole, cs) ← whole? cs
  let (fraction, cs) ← fraction? cs
  let (exponent, cs) ← exponent? cs
  return (⟨negative, whole, fraction, exponent, !fraction.isEmpty || exponent.isSome⟩, cs)

/-- The number at the start of a text. -/
def numeral? : List Char → Option (Numeral × List Char)
  | '-' :: cs => unsigned? true cs
  | cs => unsigned? false cs

/-! ## Values -/

namespace Tree

mutual

/-- The value at the start of a text, which has less than `fuel` parts. -/
def value? : Nat → List Char → Option (Tree × List Char)
  | 0, _ => none
  | fuel + 1, cs =>
    match skip cs with
    | 'n' :: 'u' :: 'l' :: 'l' :: cs => some (.null, cs)
    | 't' :: 'r' :: 'u' :: 'e' :: cs => some (.bool true, cs)
    | 'f' :: 'a' :: 'l' :: 's' :: 'e' :: cs => some (.bool false, cs)
    | '"' :: cs => (pieces? cs).map fun (ps, rest) => (.string ps, rest)
    | '[' :: cs =>
      match skip cs with
      | ']' :: cs => some (.array [], cs)
      | cs => (items? fuel cs).map fun (items, rest) => (.array items, rest)
    | '\x7b' :: cs =>
      match skip cs with
      | '\x7d' :: cs => some (.object [], cs)
      | cs => (fields? fuel cs).map fun (fields, rest) => (.object fields, rest)
    | cs => (numeral? cs).map fun (n, rest) => (.number n, rest)

/-- The items of an array up to its closing bracket. -/
def items? : Nat → List Char → Option (List Tree × List Char)
  | 0, _ => none
  | fuel + 1, cs =>
    match value? fuel cs with
    | none => none
    | some (item, cs) =>
      match skip cs with
      | ']' :: cs => some ([item], cs)
      | ',' :: cs => (items? fuel cs).map fun (items, rest) => (item :: items, rest)
      | _ => none

/-- The fields of an object up to its closing brace. -/
def fields? : Nat → List Char → Option (List (List Piece × Tree) × List Char)
  | 0, _ => none
  | fuel + 1, cs =>
    match skip cs with
    | '"' :: cs =>
      match pieces? cs with
      | none => none
      | some (name, cs) =>
        match skip cs with
        | ':' :: cs =>
          match value? fuel cs with
          | none => none
          | some (value, cs) =>
            match skip cs with
            | '\x7d' :: cs => some ([(name, value)], cs)
            | ',' :: cs =>
              (fields? fuel cs).map fun (fields, rest) => ((name, value) :: fields, rest)
            | _ => none
        | _ => none
    | _ => none

end

/-- The tree of a whole text. Every part of it takes a character, so its length
    is fuel enough. -/
def parse? (cs : List Char) : Option Tree :=
  match value? (cs.length + 1) cs with
  | some (tree, rest) => if (skip rest).isEmpty then some tree else none
  | none => none

end Tree

end ShadowCatalog.Json
