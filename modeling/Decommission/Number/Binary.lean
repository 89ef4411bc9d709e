/-!
Binary fractions of limited precision, and the one that is nearest to a quotient. Of two that are
equally near, the one with the even mantissa is taken.
-/
namespace Decommission

/-- The quotient as a whole number: the nearest one, and of two the even one. -/
def roundQuotient (num den : Nat) : Nat :=
  let below := num / den
  let rest := 2 * (num % den)
  if rest < den ∨ (rest = den ∧ below % 2 = 0) then below else below + 1

/-- The value `mantissa * 2 ^ exponent`. -/
structure BinaryFraction where
  mantissa : Nat
  exponent : Int
  deriving DecidableEq, Repr

namespace BinaryFraction

def zero : BinaryFraction := ⟨0, 0⟩

/-- The value is `numerator / denominator`. -/
def numerator (x : BinaryFraction) : Nat := x.mantissa * Nat.pow 2 x.exponent.toNat

def denominator (x : BinaryFraction) : Nat := Nat.pow 2 (-x.exponent).toNat

end BinaryFraction

/-- The bits of a mantissa, and the exponents between which a value is finite. -/
structure Precision where
  bits : Nat
  leastExponent : Int
  greatestExponent : Int
  deriving DecidableEq, Repr

namespace Precision

def single : Precision := ⟨24, -149, 104⟩

def double : Precision := ⟨53, -1074, 971⟩

/-- The exponent of the leading bit of a quotient. -/
def leadingExponent (num den : Nat) : Int :=
  let e : Int := (num.log2 : Int) - den.log2
  if den * Nat.pow 2 e.toNat ≤ num * Nat.pow 2 (-e).toNat then e else e - 1

/-- The value nearest to the quotient; there is no bound on its size. -/
def nearest (p : Precision) (num den : Nat) : BinaryFraction :=
  if num = 0 then .zero
  else
    let e := max (leadingExponent num den - p.bits + 1) p.leastExponent
    let m := roundQuotient (num * Nat.pow 2 (-e).toNat) (den * Nat.pow 2 e.toNat)
    if m = Nat.pow 2 p.bits then ⟨Nat.pow 2 (p.bits - 1), e + 1⟩ else ⟨m, e⟩

def ofNat (p : Precision) (n : Nat) : BinaryFraction := p.nearest n 1

def sum (p : Precision) (x y : BinaryFraction) : BinaryFraction :=
  p.nearest (x.numerator * y.denominator + y.numerator * x.denominator)
    (x.denominator * y.denominator)

def product (p : Precision) (x y : BinaryFraction) : BinaryFraction :=
  p.nearest (x.numerator * y.numerator) (x.denominator * y.denominator)

def quotient (p : Precision) (x y : BinaryFraction) : BinaryFraction :=
  p.nearest (x.numerator * y.denominator) (x.denominator * y.numerator)

/-- The value is no greater than all that have the greatest exponent. -/
def isFinite (p : Precision) (x : BinaryFraction) : Bool := x.exponent ≤ p.greatestExponent

end Precision

end Decommission
