import ShadowCatalog.Json.Reader
import ShadowCatalog.Text.Calendar
import ShadowCatalog.Text.Utf8

/-!
# Values on the wire

How the server sends a value: as octets, in a form of its own for each type. An
integer is sent with its most significant octet first, in two's complement where
it may be negative; text is UTF-8; the binary form of JSON has the number of its
version, 1, in front of the text. Each reader takes the whole of a value and
refuses anything else.
-/

namespace ShadowCatalog.Postgres.Wire

open Text

/-! ## Integers -/

/-- The number that octets write. -/
def natural (octets : List UInt8) : Nat :=
  octets.foldl (fun n octet => n * 256 + octet.toNat) 0

/-- A number without sign, of `size` octets. -/
def unsigned? (size : Nat) (octets : List UInt8) : Option Nat :=
  if octets.length = size then some (natural octets) else none

/-- A number in two's complement, of `size` octets. -/
def signed? (size : Nat) (octets : List UInt8) : Option Int :=
  (unsigned? size octets).map fun n =>
    if 2 * n < Nat.pow 256 size then (n : Int) else (n : Int) - (Nat.pow 256 size : Nat)

/-- The octets of a number, of which only the last `size` are kept. -/
def ofInt : (size : Nat) → Int → List UInt8
  | 0, _ => []
  | size + 1, n => ofInt size (n / 256) ++ [UInt8.ofNat (n % 256).toNat]

/-! ## Other values -/

/-- A truth value: one octet, which is not zero if it is true. -/
def bool? (octets : List UInt8) : Option Bool :=
  (unsigned? 1 octets).map (· ≠ 0)

/-- A text. -/
def text? (octets : List UInt8) : Option String :=
  (Utf8.decode? octets).map String.ofList

/-- JSON as text. -/
def json? (octets : List UInt8) : Option Json := (text? octets).bind Json.parse?

/-- JSON in its binary form. -/
def jsonb? : List UInt8 → Option Json
  | [] => none
  | version :: octets => if version = 1 then json? octets else none

/-- The octets of a text. -/
def ofText (text : String) : List UInt8 := Utf8.encode text

/-- The octets of a text of JSON in its binary form. -/
def ofJsonb (text : String) : List UInt8 := 1 :: ofText text

/-- Two hexadecimal digits. -/
def hexOctet (octet : UInt8) : List Char :=
  let digits := Nat.toDigits 16 octet.toNat
  List.replicate (2 - digits.length) '0' ++ digits

/-- A universally unique identifier: sixteen octets, shown in five groups of
    hexadecimal digits. -/
def uuid? (octets : List UInt8) : Option String :=
  if octets.length = 16 then
    let digits := octets.flatMap hexOctet
    let group (start size : Nat) : List Char := (digits.drop start).take size
    some (String.ofList (List.intercalate ['-']
      [group 0 8, group 8 4, group 12 4, group 16 4, group 20 12]))
  else none

/-- A double. -/
def double? (octets : List UInt8) : Option Binary64 :=
  (unsigned? 8 octets).map fun bits => ⟨UInt64.ofNat bits⟩

/-- A number of 32 bits as a double. -/
def single? (octets : List UInt8) : Option Binary64 :=
  (unsigned? 4 octets).map Binary64.ofBinary32

/-- A time on a day: the microseconds since the start of the year 2000. -/
def timestamp? (octets : List UInt8) : Option DateTime :=
  (signed? 8 octets).bind DateTime.ofMicroseconds?

/-- A day: the days since the start of the year 2000. -/
def date? (octets : List UInt8) : Option Date :=
  (signed? 4 octets).bind Date.ofDays?

/-- A time of day: the microseconds since midnight. -/
def time? (octets : List UInt8) : Option TimeOfDay :=
  (signed? 8 octets).map DateTime.timeOfMicroseconds

end ShadowCatalog.Postgres.Wire
