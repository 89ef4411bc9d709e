import Decommission.Number.Binary

/-!
The decimal that stands for a binary fraction: of all decimals that are rounded to the fraction, one
with the fewest digits, and of these the nearest one.
-/
namespace Decommission

/-- The value `digits * 10 ^ exponent`. -/
structure Decimal where
  digits : Nat
  exponent : Int
  deriving DecidableEq, Repr

namespace Decimal

/-- Compares the decimal with `n * 2 ^ e`. -/
def compareBinary (d : Decimal) (n : Nat) (e : Int) : Ordering :=
  compare (d.digits * Nat.pow 10 d.exponent.toNat * Nat.pow 2 (-e).toNat)
    (n * Nat.pow 2 e.toNat * Nat.pow 10 (-d.exponent).toNat)

/-- The same value without zeros at the end of its digits, of which at most `places` are dropped. -/
def trimmed : (places : Nat) → Decimal → Decimal
  | 0, d => d
  | places + 1, d => if d.digits % 10 = 0 then trimmed places ⟨d.digits / 10, d.exponent + 1⟩ else d

end Decimal

namespace Precision

/-- Whether the decimal is rounded to `x`. The gap below a fraction with the least mantissa is half as
wide as the one above, and an even mantissa takes both halves. -/
def readsBack (p : Precision) (x : BinaryFraction) (d : Decimal) : Bool :=
  let narrow := x.mantissa = Nat.pow 2 (p.bits - 1) ∧ p.leastExponent < x.exponent
  let low := d.compareBinary (if narrow then 4 * x.mantissa - 1 else 4 * x.mantissa - 2)
    (x.exponent - 2)
  let high := d.compareBinary (4 * x.mantissa + 2) (x.exponent - 2)
  let closed := x.mantissa % 2 == 0
  (low == .gt || (closed && low == .eq)) && (high == .lt || (closed && high == .eq))

/-- The number of digits before the point, which is negative by the zeros that follow it. -/
def wholeDigits (p : Precision) (x : BinaryFraction) : Int :=
  let shift := (-p.leastExponent).toNat
  ((Nat.toDigits 10 (x.numerator * Nat.pow 10 shift / x.denominator)).length : Int) - shift

/-- The decimal of `n` digits that is rounded to `x`, if there is one, and the nearest of two. -/
def decimalOf? (p : Precision) (x : BinaryFraction) (n : Nat) : Option Decimal :=
  let grid := p.wholeDigits x - n
  let num := x.numerator * Nat.pow 10 (-grid).toNat
  let den := x.denominator * Nat.pow 10 grid.toNat
  let near := roundQuotient num den
  let other := if near = num / den then near + 1 else near - 1
  if p.readsBack x ⟨near, grid⟩ then some ⟨near, grid⟩
  else if p.readsBack x ⟨other, grid⟩ then some ⟨other, grid⟩
  else none

/-- More digits than are needed to tell apart the fractions of double precision. -/
def mostDigits : Nat := 17

/-- The decimal that stands for `x`. -/
def shortest (p : Precision) (x : BinaryFraction) : Decimal :=
  let found := (List.range mostDigits).findSome? fun n => p.decimalOf? x (n + 1)
  let exact : Decimal :=
    ⟨x.numerator * Nat.pow 10 (-x.exponent).toNat / x.denominator, -(-x.exponent).toNat⟩
  (found.getD exact).trimmed mostDigits

end Precision

end Decommission
