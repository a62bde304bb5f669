/-!
# Reading decimal integers

An integer is written as one or more ASCII digits, with a sign in front if one
is wanted: `+` for any integer, `-` only where negative ones exist. Nothing
else may stand beside the digits, blanks included.

* `signed? bits` reads an integer of `bits` bits in two's complement;
* `unsigned? bits` reads a natural number of `bits` bits.
-/

namespace ShadowCatalog.Text

/-- The value of one ASCII digit. -/
def digit? (c : Char) : Option Nat :=
  if c.isDigit then some (c.toNat - '0'.toNat) else none

/-- The number that a list of digits continues `value` to. -/
def continueDigits (value : Nat) : List Char → Option Nat
  | [] => some value
  | c :: cs =>
    match digit? c with
    | some d => continueDigits (value * 10 + d) cs
    | none => none

/-- The number written by one or more digits. -/
def digits? : List Char → Option Nat
  | [] => none
  | c :: cs => continueDigits 0 (c :: cs)

/-- The integer written by digits after an optional sign. -/
def integer? : List Char → Option Int
  | '-' :: cs => (digits? cs).map fun n => -(n : Int)
  | '+' :: cs => (digits? cs).map fun n => (n : Int)
  | cs => (digits? cs).map fun n => (n : Int)

/-- The natural number written by digits after an optional `+`. -/
def natural? : List Char → Option Nat
  | '+' :: cs => digits? cs
  | cs => digits? cs

/-- The integers of `bits` bits in two's complement. -/
def fitsSigned (bits : Nat) (n : Int) : Bool :=
  -(Nat.pow 2 (bits - 1) : Nat) ≤ n && n < (Nat.pow 2 (bits - 1) : Nat)

/-- The integer of `bits` bits that the text writes. -/
def signed? (bits : Nat) (cs : List Char) : Option Int :=
  (integer? cs).filter (fitsSigned bits)

/-- The natural number of `bits` bits that the text writes. -/
def unsigned? (bits : Nat) (cs : List Char) : Option Nat :=
  (natural? cs).filter (· < Nat.pow 2 bits)

end ShadowCatalog.Text
