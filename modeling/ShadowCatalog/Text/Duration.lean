import ShadowCatalog.Text.Blank
import ShadowCatalog.Text.Letters

/-!
# Durations

A span of time in whole seconds and nanoseconds, and the text in which it is
shown: the largest of the units `s`, `ms`, `µs` and `ns` that fits, with the
exact decimal fraction and no trailing zeros.
-/

namespace ShadowCatalog

/-- A span of time. -/
structure Duration where
  /-- The whole seconds. -/
  seconds : Nat
  /-- The nanoseconds beyond them. -/
  nanoseconds : Nat
  deriving DecidableEq, Repr

namespace Duration

/-- A span of whole seconds. -/
def ofSeconds (n : Nat) : Duration := ⟨n, 0⟩

/-- A span of whole milliseconds. -/
def ofMilliseconds (n : Nat) : Duration := ⟨n / 1000, n % 1000 * 1000000⟩

/-- The whole milliseconds in the span. -/
def milliseconds (d : Duration) : Nat :=
  d.seconds * 1000 + d.nanoseconds / 1000000

/-- The first whole millisecond that does not come before the end of the span:
    where a timer of one millisecond's resolution ends it. -/
def ticks (d : Duration) : Nat :=
  d.seconds * 1000 + (d.nanoseconds + 999999) / 1000000

/-- The span takes no time. -/
def isZero (d : Duration) : Bool :=
  d.seconds == 0 && d.nanoseconds == 0

/-- `whole` units and `part` of its `places`-digit fractions. -/
def decimal (places whole part : Nat) (unit : String) : String :=
  let fraction := Text.dropEndWhile (· == '0') (Text.paddedDigits places part)
  toString whole ++ (if fraction.isEmpty then "" else "." ++ String.ofList fraction) ++ unit

/-- The text of a span. -/
def text (d : Duration) : String :=
  if d.seconds > 0 then decimal 9 d.seconds d.nanoseconds "s"
  else if d.nanoseconds ≥ 1000000 then
    decimal 6 (d.nanoseconds / 1000000) (d.nanoseconds % 1000000) "ms"
  else if d.nanoseconds ≥ 1000 then
    decimal 3 (d.nanoseconds / 1000) (d.nanoseconds % 1000) "µs"
  else decimal 0 d.nanoseconds 0 "ns"

end Duration

end ShadowCatalog
