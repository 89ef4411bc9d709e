/-! Decimal numerals with a least width. -/
namespace Decommission.Text

/-- The decimal numeral of `n`, with zeros in front up to `width` digits. -/
def paddedDigits (width n : Nat) : List Char :=
  let digits := Nat.toDigits 10 n
  List.replicate (width - digits.length) '0' ++ digits

def padded (width n : Nat) : String := String.ofList (paddedDigits width n)

end Decommission.Text
