import Decommission.Number.Binary
import Decommission.Text.Digits

/-! Lengths of time in whole nanoseconds, their text, their doubling, and timers set to them. -/
namespace Decommission

/-- A length of time in nanoseconds. -/
abbrev Duration := Nat

namespace Duration

def millis (n : Nat) : Duration := n * 1000000

def seconds (n : Nat) : Duration := n * 1000000000

/-- `d` in the unit of `10 ^ places` nanoseconds; the fraction has no zero at its end. -/
def inUnit (d : Duration) (places : Nat) (unit : String) : String :=
  let fraction := Text.paddedDigits places (d % Nat.pow 10 places)
  let kept := (fraction.reverse.dropWhile fun c => c == '0').reverse
  toString (d / Nat.pow 10 places) ++
    (if kept.isEmpty then "" else "." ++ String.ofList kept) ++ unit

/-- The length in the largest of the units s, ms, µs and ns in which it is at least one. -/
def text (d : Duration) : String :=
  if Nat.pow 10 9 ≤ d then inUnit d 9 "s"
  else if Nat.pow 10 6 ≤ d then inUnit d 6 "ms"
  else if Nat.pow 10 3 ≤ d then inUnit d 3 "µs"
  else toString d ++ "ns"

/-- The length in seconds, in single precision: the whole seconds, the rest and their sum are each
rounded. -/
def inSeconds (d : Duration) : BinaryFraction :=
  Precision.single.sum (Precision.single.ofNat (d / Nat.pow 10 9))
    (Precision.single.quotient (Precision.single.ofNat (d % Nat.pow 10 9))
      (Precision.single.ofNat (Nat.pow 10 9)))

/-- Twice the length. Its seconds are doubled in single precision, and the result is the nearest whole
number of nanoseconds. -/
def doubled (d : Duration) : Duration :=
  let s := d.inSeconds
  roundQuotient (2 * s.numerator * Nat.pow 10 9) s.denominator

/-- The longest time for which a timer runs: thirty years of 365 days. -/
def longestTimer : Duration := seconds (30 * 365 * 24 * 60 * 60)

/-- How long a timer runs that is set to `d`. -/
def onTimer (d : Duration) : Duration := min d longestTimer

end Duration

end Decommission
