/-! Query pairs in the form of `application/x-www-form-urlencoded`. -/
namespace Decommission.Form

def hexDigit (n : Nat) : Char := "0123456789ABCDEF".toList.getD n '0'

/-- The characters that stand for themselves. -/
def isPlain (c : Char) : Bool := c.isAlphanum || c == '*' || c == '-' || c == '.' || c == '_'

/-- A blank becomes a plus sign, and each byte of any other character its two hexadecimal digits. -/
def encodeChar (c : Char) : List Char :=
  if isPlain c then [c]
  else if c = ' ' then ['+']
  else (String.singleton c).toUTF8.toList.flatMap fun b =>
    ['%', hexDigit (b.toNat / 16), hexDigit (b.toNat % 16)]

def encodeText (s : String) : String := String.ofList (s.toList.flatMap encodeChar)

def encodePair (p : String × String) : String := encodeText p.1 ++ "=" ++ encodeText p.2

def encode (pairs : List (String × String)) : String :=
  String.intercalate "&" (pairs.map encodePair)

end Decommission.Form
