/-! Text as its bytes, each of which is taken as the character of its number. -/
namespace Decommission.Text

/-- The bytes of the text. -/
def octets (s : String) : List Char := s.toUTF8.toList.map fun b => Char.ofNat b.toNat

/-- The text of these bytes; it is empty if they are no text. -/
def ofOctets (cs : List Char) : String :=
  (String.fromUTF8? ⟨(cs.map fun c => c.toNat.toUInt8).toArray⟩).getD ""

end Decommission.Text
