import Decommission.Text.Digits
import Mathlib.Algebra.Ring.Nat

/-! Decimal numerals are read back, with zeros in front or without. -/
namespace Decommission.Text

variable {width m n : Nat}

theorem toList_toString (n : Nat) : (toString n).toList = Nat.toDigits 10 n := by
  rw [Nat.toString_eq_ofList_toDigits, String.toList_ofList]

theorem toString_inj : toString m = toString n ↔ m = n := by
  constructor
  · intro h
    have hread := congrArg (fun text => Nat.ofDigitChars 10 text.toList 0) h
    simpa only [toList_toString, Nat.ofDigitChars_ten_toDigits] using hread
  · rintro rfl
    rfl

/-- The numeral of `width` decimal digits that the text starts with, and what follows it. -/
def number? (width : Nat) (text : List Char) : Option (Nat × List Char) :=
  if (text.take width).length = width ∧ (text.take width).all Char.isDigit then
    some (Nat.ofDigitChars 10 (text.take width) 0, text.drop width)
  else none

theorem length_paddedDigits (hwidth : 0 < width) (h : n < 10 ^ width) :
    (paddedDigits width n).length = width := by
  have hdigits : (Nat.toDigits 10 n).length ≤ width :=
    (Nat.length_toDigits_le_iff (by decide) hwidth).mpr h
  simp only [paddedDigits, List.length_append, List.length_replicate]
  omega

theorem isDigit_of_mem_paddedDigits {c : Char} (h : c ∈ paddedDigits width n) :
    c.isDigit = true := by
  rcases List.mem_append.mp h with hzero | hdigit
  · rw [List.eq_of_mem_replicate hzero]
    rfl
  · exact Nat.isDigit_of_mem_toDigits (by decide) (by decide) hdigit

theorem ofDigitChars_paddedDigits : Nat.ofDigitChars 10 (paddedDigits width n) 0 = n := by
  rw [paddedDigits, Nat.ofDigitChars_append, Nat.ofDigitChars_replicate_zero, Nat.mul_zero,
    Nat.ofDigitChars_ten_toDigits]

theorem number?_paddedDigits (hwidth : 0 < width) (h : n < 10 ^ width) (rest : List Char) :
    number? width (paddedDigits width n ++ rest) = some (n, rest) := by
  have hlength := length_paddedDigits hwidth h
  have htake : (paddedDigits width n ++ rest).take width = paddedDigits width n :=
    List.take_left' hlength
  have hdigits : (paddedDigits width n).all Char.isDigit = true :=
    List.all_eq_true.mpr fun _ hc => isDigit_of_mem_paddedDigits hc
  rw [number?, htake, if_pos ⟨hlength, hdigits⟩, ofDigitChars_paddedDigits,
    List.drop_left' hlength]

end Decommission.Text
