/-!
# Double precision numbers

Numbers of the binary64 format, held as their bits, and the exact arithmetic
on them that reading and writing decimal numbers takes. A magnitude is the bits
of a number without its sign.

* `roundRatio` is the magnitude nearest to a ratio of natural numbers, of two
  that are equally near the one with an even last bit; `infinity` stands for
  what is too large;
* `ratio` is the ratio a finite magnitude stands for;
* `shortest` is the decimal with the fewest digits that rounds to a magnitude,
  of those the nearest to it.
-/

namespace ShadowCatalog

/-- A number of the binary64 format. -/
structure Binary64 where
  /-- Its sign, exponent and fraction, from the highest bit. -/
  bits : UInt64
  deriving DecidableEq, Repr

namespace Binary64

-- Powers are written `Nat.pow`, as what `^` stands for depends on what is imported.

/-- The magnitude of the infinities. -/
def infinity : Nat := 0x7FF * Nat.pow 2 52

/-- The magnitude nearest to `num / den`. -/
def roundRatio (num den : Nat) : Nat :=
  if num = 0 then 0
  else
    let scaled (e : Int) : Nat × Nat :=
      (num * Nat.pow 2 (-e).toNat, den * Nat.pow 2 e.toNat)
    let guess : Int := (Nat.log2 num : Int) - Nat.log2 den - 52
    let (n, d) := scaled guess
    let exact := if n / d < Nat.pow 2 52 then guess - 1 else guess
    let e := max exact (-1074)
    let (n, d) := scaled e
    let q := n / d
    let r := n % d
    let rounded := if 2 * r > d || (2 * r == d && q % 2 == 1) then q + 1 else q
    min infinity ((e + 1074).toNat * Nat.pow 2 52 + rounded)

/-- The ratio that a finite magnitude stands for. -/
def ratio (magnitude : Nat) : Nat × Nat :=
  let exponent := magnitude / Nat.pow 2 52
  let fraction := magnitude % Nat.pow 2 52
  if exponent = 0 then (fraction, Nat.pow 2 1074)
  else ((fraction + Nat.pow 2 52) * Nat.pow 2 (exponent - 1075), Nat.pow 2 (1075 - exponent))

/-- The product of two finite magnitudes, rounded. -/
def mul (a b : Nat) : Nat :=
  let (n, d) := ratio a
  let (n', d') := ratio b
  roundRatio (n * n') (d * d')

/-- The quotient of two finite magnitudes, rounded. -/
def div (a b : Nat) : Nat :=
  let (n, d) := ratio a
  let (n', d') := ratio b
  roundRatio (n * d') (d * n')

/-- The magnitude nearest to a power of ten. -/
def powerOfTen (k : Nat) : Nat := roundRatio (Nat.pow 10 k) 1

/-- The number with a sign and a magnitude. -/
def ofMagnitude (negative : Bool) (magnitude : Nat) : Binary64 :=
  ⟨UInt64.ofNat (magnitude + if negative then Nat.pow 2 63 else 0)⟩

/-- The number lies below zero, or is the zero below zero. -/
def isNegative (x : Binary64) : Bool := x.bits.toNat ≥ Nat.pow 2 63

/-- The number without its sign. -/
def magnitude (x : Binary64) : Nat := x.bits.toNat % Nat.pow 2 63

/-- The number is neither infinite nor undefined. -/
def isFinite (x : Binary64) : Bool := x.magnitude < infinity

/-- The number with the value of a number of the binary32 format, given as its
    bits. Every such value is one of binary64. -/
def ofBinary32 (bits : Nat) : Binary64 :=
  let negative := bits / Nat.pow 2 31 % 2 == 1
  let exponent := bits / Nat.pow 2 23 % Nat.pow 2 8
  let fraction := bits % Nat.pow 2 23
  if exponent = 0xFF then
    ofMagnitude negative (infinity + fraction * Nat.pow 2 29)
  else if exponent = 0 then
    ofMagnitude negative (roundRatio fraction (Nat.pow 2 149))
  else
    ofMagnitude negative
      (roundRatio ((fraction + Nat.pow 2 23) * Nat.pow 2 (exponent - 150))
        (Nat.pow 2 (150 - exponent)))

/-! ## The shortest decimal -/

/-- The natural number `k` with `10 ^ (k - 1) ≤ num / den < 10 ^ k`, for a
    positive ratio. -/
def decimalPlaces (num den : Nat) : Int :=
  if num ≥ den then (Nat.toDigits 10 (num / den)).length
  else 1 - ((Nat.toDigits 10 ((den - 1) / num)).length : Int)

/-- The magnitude nearest to `digits * 10 ^ exponent`. -/
def ofDecimal (digits : Nat) (exponent : Int) : Nat :=
  roundRatio (digits * Nat.pow 10 exponent.toNat) (Nat.pow 10 (-exponent).toNat)

/-- The neighbour of `num / den` among the multiples of `10 ^ exponent` that
    rounds to the magnitude, the nearer one if both do. -/
def neighbour? (magnitude num den : Nat) (exponent : Int) : Option Nat :=
  let n := num * Nat.pow 10 (-exponent).toNat
  let d := den * Nat.pow 10 exponent.toNat
  let below := n / d
  let above := below + 1
  let belowReads := ofDecimal below exponent == magnitude
  let aboveReads := ofDecimal above exponent == magnitude
  let rest := n % d
  let belowNearer := 2 * rest < d || (2 * rest == d && below % 2 == 0)
  if belowReads && (belowNearer || !aboveReads) then some below
  else if aboveReads then some above
  else none

/-- The digits and the exponent of the shortest decimal, from `digits` digits
    on. At seventeen digits every finite magnitude has one. -/
def shortestFrom (magnitude num den : Nat) (places : Int) : Nat → Nat → Nat × Int
  | 0, digits => (0, places - digits)
  | fuel + 1, digits =>
    match neighbour? magnitude num den (places - digits) with
    | some n => (n, places - digits)
    | none => shortestFrom magnitude num den places fuel (digits + 1)

/-- The decimal without the zeros at its end. -/
def withoutZeros (n : Nat) (k : Int) : Nat × Int :=
  if n ≠ 0 ∧ n % 10 = 0 then withoutZeros (n / 10) (k + 1) else (n, k)
  termination_by n

/-- The decimal `n * 10 ^ k` with the fewest digits that rounds to a positive
    finite magnitude, as `(n, k)`. -/
def shortest (magnitude : Nat) : Nat × Int :=
  let (num, den) := ratio magnitude
  let (n, k) := shortestFrom magnitude num den (decimalPlaces num den) 17 1
  withoutZeros n k

/-- The text of a finite number: its shortest decimal, positional while the
    point stands within sixteen digits to the right and five zeros to the left,
    and with at least one digit after the point. -/
def text (x : Binary64) : List Char :=
  let sign := if x.isNegative then ['-'] else []
  if x.magnitude = 0 then sign ++ ['0', '.', '0']
  else
    let (n, k) := shortest x.magnitude
    let digits := Nat.toDigits 10 n
    let point : Int := digits.length + k
    let zeros (count : Int) := List.replicate count.toNat '0'
    let exponent := (toString (point - 1)).toList
    sign ++
      if 0 ≤ k ∧ point ≤ 16 then digits ++ zeros k ++ ['.', '0']
      else if 0 < point ∧ point ≤ 16 then
        digits.take point.toNat ++ ['.'] ++ digits.drop point.toNat
      else if -5 < point ∧ point ≤ 0 then ['0', '.'] ++ zeros (-point) ++ digits
      else
        match digits with
        | [d] => d :: 'e' :: exponent
        | d :: ds => d :: '.' :: ds ++ 'e' :: exponent
        | [] => []

end Binary64

end ShadowCatalog
