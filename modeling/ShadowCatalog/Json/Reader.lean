import ShadowCatalog.Json.Basic
import ShadowCatalog.Json.Grammar

/-!
# Reading JSON

What a tree of JSON stands for. Strings are Unicode, so a surrogate must be
paired. A number without point and exponent is an integer if it lies among
those of 64 bits, with a sign or without, and is not the zero below zero; every
other number is a double. Arrays and objects nest at most `maxDepth` deep.

A double is computed from at most nineteen or twenty digits, those that fit into
64 bits, scaled by one power of ten (`scaled?`). The result may thus differ from
the nearest double in the last bit.
-/

namespace ShadowCatalog.Json

/-- How deep arrays and objects may nest. -/
def maxDepth : Nat := 127

/-! ## Strings -/

/-- The characters of a string. A unit above `U+D7FF` is half of a character, if
    it is below `U+E000`. -/
def characters? : List Piece → Option (List Char)
  | [] => some []
  | .char c :: ps => (characters? ps).map (c :: ·)
  | .unit n :: ps =>
    if 0xD800 ≤ n ∧ n < 0xDC00 then
      match ps with
      | .unit m :: ps =>
        if 0xDC00 ≤ m ∧ m < 0xE000 then
          (characters? ps).map (Char.ofNat (0x10000 + (n - 0xD800) * 0x400 + (m - 0xDC00)) :: ·)
        else none
      | _ => none
    else if 0xDC00 ≤ n ∧ n < 0xE000 then none
    else (characters? ps).map (Char.ofNat n :: ·)

/-- The string of the pieces. -/
def text? (ps : List Piece) : Option String :=
  (characters? ps).map String.ofList

/-! ## Numbers -/

/-- The number that digits continue `n` to while it fits into 64 bits, and how
    many digits are left over. -/
def significand (n : Nat) : List Nat → Nat × Nat
  | [] => (n, 0)
  | d :: ds => if n * 10 + d < Nat.pow 2 64 then significand (n * 10 + d) ds else (n, ds.length + 1)

/-- A magnitude divided by a power of ten, in steps of at most `10 ^ 308`. -/
def scaledDown (magnitude : Nat) (exponent : Nat) : Nat :=
  if exponent ≤ 308 then Binary64.div magnitude (Binary64.powerOfTen exponent)
  else if magnitude = 0 then 0
  else scaledDown (Binary64.div magnitude (Binary64.powerOfTen 308)) (exponent - 308)
  termination_by exponent

/-- The magnitude of `n * 10 ^ exponent`, if it is finite. -/
def scaled? (n : Nat) (exponent : Int) : Option Nat :=
  let magnitude := Binary64.roundRatio n 1
  if exponent < 0 then some (scaledDown magnitude (-exponent).toNat)
  else if exponent ≤ 308 then
    let product := Binary64.mul magnitude (Binary64.powerOfTen exponent.toNat)
    if product < Binary64.infinity then some product else none
  else if n = 0 then some 0
  else none

/-- The exponent that is written. -/
def Numeral.writtenExponent (n : Numeral) : Int :=
  match n.exponent with
  | none => 0
  | some (negative, digits) =>
    let e : Nat := digits.foldl (fun e d => e * 10 + d) 0
    if negative then -(e : Int) else e

/-- The value of a number, unless it is too large for a double. -/
def Numeral.read? (n : Numeral) : Option Json :=
  let (whole, dropped) := significand 0 n.whole
  if n.isDecimal || dropped != 0 then
    let (digits, unused) := significand whole n.fraction
    let exponent := dropped - (n.fraction.length - unused : Nat) + n.writtenExponent
    (scaled? digits exponent).map fun m => .double (.ofMagnitude n.negative m)
  else if !n.negative then some (.int whole)
  else if 0 < whole ∧ whole ≤ Nat.pow 2 63 then some (.int (-whole))
  else some (.double (.ofMagnitude true (Binary64.roundRatio whole 1)))

/-! ## Values -/

mutual

/-- The value of a tree in which arrays and objects nest at most `depth` deep. -/
def Tree.read? (depth : Nat) : Tree → Option Json
  | .null => some .null
  | .bool b => some (.bool b)
  | .number n => n.read?
  | .string ps => (text? ps).map .string
  | .array items => if depth = 0 then none else (readItems? (depth - 1) items).map .array
  | .object fields =>
    if depth = 0 then none
    else (readFields? (depth - 1) fields).map fun pairs => .object (ofPairs pairs)

/-- The values of the items of an array. -/
def readItems? (depth : Nat) : List Tree → Option (List Json)
  | [] => some []
  | item :: items => do
    let j ← item.read? depth
    let js ← readItems? depth items
    return j :: js

/-- The names and values of the fields of an object, as they are written. -/
def readFields? (depth : Nat) : List (List Piece × Tree) → Option (List (String × Json))
  | [] => some []
  | (name, value) :: fields => do
    let name ← text? name
    let j ← value.read? depth
    let js ← readFields? depth fields
    return (name, j) :: js

end

/-- The value of a text. -/
def parse? (s : String) : Option Json :=
  (Tree.parse? s.toList).bind (Tree.read? maxDepth)

/-- The integers of an array that holds nothing else. -/
def integers? : Json → Option (List Int)
  | .array items => items.mapM fun | .int n => some n | _ => none
  | _ => none

end ShadowCatalog.Json
