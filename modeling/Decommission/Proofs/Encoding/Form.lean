import Decommission.Encoding.Form
import Decommission.Proofs.Text.Joined
import Mathlib.Tactic.SplitIfs

/-! Query pairs are read back from their form. -/
namespace Decommission

namespace Text

variable {b : ByteArray} {s : String} {c : Char}

theorem toList_loop {i : Nat} {read : List UInt8} :
    ByteArray.toList.loop b i read = read.reverse ++ b.data.toList.drop i := by
  induction i, read using ByteArray.toList.loop.induct b with
  | case1 i read hi ih =>
    have hlength : i < b.data.toList.length := by simpa using hi
    have hbyte : b.get! i = b.data.toList[i] := by
      rw [Array.getElem_toList]
      exact getElem!_pos b.data i (by simpa using hi)
    rw [ByteArray.toList.loop, if_pos hi, ih, List.drop_eq_getElem_cons hlength, hbyte,
      List.reverse_cons, List.append_assoc, List.singleton_append]
  | case2 i read hi =>
    have hlength : b.data.toList.length ≤ i := by simpa using hi
    rw [ByteArray.toList.loop, if_neg hi, List.drop_eq_nil_of_le hlength, List.append_nil]

theorem toList_bytes : b.toList = b.data.toList := by
  rw [ByteArray.toList, toList_loop, List.reverse_nil, List.drop_zero, List.nil_append]

/-- The bytes of a text are those of its characters. -/
theorem toList_toUTF8 : s.toUTF8.toList = s.toList.flatMap String.utf8EncodeChar := by
  have hbytes : s.toByteArray = s.toList.utf8Encode := by
    rw [← String.toByteArray_ofList, String.ofList_toList]
  rw [toList_bytes, String.toUTF8_eq_toByteArray, hbytes, List.utf8Encode,
    List.toList_data_toByteArray]

theorem toList_toUTF8_singleton : (String.singleton c).toUTF8.toList = String.utf8EncodeChar c := by
  rw [toList_toUTF8, String.toList_singleton, List.flatMap_cons, List.flatMap_nil, List.append_nil]

theorem fromUTF8?_toUTF8 : String.fromUTF8? s.toUTF8 = some s := by
  unfold String.fromUTF8?
  rw [String.toUTF8_eq_toByteArray, dif_pos s.isValidUTF8]
  rfl

end Text

namespace Form

/-- The number of a hexadecimal digit, in either case. -/
def digitValue? (c : Char) : Option Nat :=
  if '0' ≤ c ∧ c ≤ '9' then some (c.toNat - '0'.toNat)
  else if 'A' ≤ c ∧ c ≤ 'F' then some (c.toNat - 'A'.toNat + 10)
  else if 'a' ≤ c ∧ c ≤ 'f' then some (c.toNat - 'a'.toNat + 10)
  else none

/-- The bytes that a text in form stands for. A percent sign without two digits after it stands for
itself. -/
def decodeBytes : List Char → List UInt8
  | [] => []
  | '+' :: rest => 0x20 :: decodeBytes rest
  | '%' :: high :: low :: rest =>
    match digitValue? high, digitValue? low with
    | some h, some l => (16 * h + l).toUInt8 :: decodeBytes rest
    | _, _ => 0x25 :: decodeBytes (high :: low :: rest)
  | c :: rest => String.utf8EncodeChar c ++ decodeBytes rest

/-- The text that a text in form stands for; `none` if its bytes are no text. -/
def decodeText (cs : List Char) : Option String :=
  String.fromUTF8? (decodeBytes cs).toByteArray

/-- The name is what comes before the first equals sign. -/
def decodePair (cs : List Char) : Option (String × String) := do
  let parts := (Text.cutFirst '=' cs).getD (cs, [])
  return (← decodeText parts.1, ← decodeText parts.2)

/-- The pairs that a query in form stands for. -/
def decode (cs : List Char) : Option (List (String × String)) :=
  ((cs.splitOn '&').filter fun part => !part.isEmpty).mapM decodePair

section

variable {c x : Char} {rest : List Char} {s : String} {p : String × String}
  {pairs : List (String × String)}

theorem digitValue?_hexDigit {n : Nat} (h : n < 16) : digitValue? (hexDigit n) = some n := by
  have hdigits : ∀ n : Fin 16, digitValue? (hexDigit n) = some n.val := by decide
  exact hdigits ⟨n, h⟩

theorem isPlain_hexDigit {n : Nat} (h : n < 16) : isPlain (hexDigit n) = true := by
  have hdigits : ∀ n : Fin 16, isPlain (hexDigit n) = true := by decide
  exact hdigits ⟨n, h⟩

theorem decodeBytes_of_isPlain (h : isPlain c = true) :
    decodeBytes (c :: rest) = String.utf8EncodeChar c ++ decodeBytes rest := by
  -- neither of the characters that stand for something else is plain
  have hplus : c ≠ '+' := by
    rintro rfl
    exact absurd h (by decide)
  have hpercent : c ≠ '%' := by
    rintro rfl
    exact absurd h (by decide)
  rw [decodeBytes]
  · exact hplus
  · intro high low rest' hc
    exact absurd hc hpercent

theorem decodeBytes_byte (b : UInt8) :
    decodeBytes ('%' :: hexDigit (b.toNat / 16) :: hexDigit (b.toNat % 16) :: rest) =
      b :: decodeBytes rest := by
  have hb : b.toNat < 256 := b.toNat_lt
  have hhigh : b.toNat / 16 < 16 := by omega
  have hlow : b.toNat % 16 < 16 := by omega
  have hvalue : (16 * (b.toNat / 16) + b.toNat % 16).toUInt8 = b := by
    rw [Nat.div_add_mod]
    exact UInt8.ofNat_toNat
  rw [decodeBytes, digitValue?_hexDigit hhigh, digitValue?_hexDigit hlow]
  exact congrArg (· :: decodeBytes rest) hvalue

theorem decodeBytes_bytes (bytes : List UInt8) :
    decodeBytes (bytes.flatMap (fun b =>
      ['%', hexDigit (b.toNat / 16), hexDigit (b.toNat % 16)]) ++ rest) =
      bytes ++ decodeBytes rest := by
  induction bytes with
  | nil => rfl
  | cons b bytes ih =>
    rw [List.flatMap_cons, List.append_assoc]
    exact (decodeBytes_byte b).trans (congrArg (b :: ·) ih)

theorem decodeBytes_encodeChar :
    decodeBytes (encodeChar c ++ rest) = String.utf8EncodeChar c ++ decodeBytes rest := by
  unfold encodeChar
  split_ifs with hplain hblank
  · exact decodeBytes_of_isPlain hplain
  · rw [hblank]
    rfl
  · rw [Text.toList_toUTF8_singleton]
    exact decodeBytes_bytes _

theorem decodeBytes_encodeChars (cs : List Char) :
    decodeBytes (cs.flatMap encodeChar) = cs.flatMap String.utf8EncodeChar := by
  induction cs with
  | nil => rfl
  | cons c cs ih => rw [List.flatMap_cons, decodeBytes_encodeChar, ih, List.flatMap_cons]

theorem decodeText_encodeText : decodeText (encodeText s).toList = some s := by
  have hbytes : (decodeBytes (encodeText s).toList).toByteArray = s.toUTF8 := by
    rw [encodeText, String.toList_ofList, decodeBytes_encodeChars, ← List.utf8Encode,
      ← String.toByteArray_ofList, String.ofList_toList]
    rfl
  rw [decodeText, hbytes, Text.fromUTF8?_toUTF8]

/-- Nothing but plain characters, plus and percent signs stands for a text. -/
theorem of_mem_encodeText (h : x ∈ (encodeText s).toList) : isPlain x = true ∨ x = '+' ∨ x = '%' := by
  rw [encodeText, String.toList_ofList, List.mem_flatMap] at h
  obtain ⟨c, -, hx⟩ := h
  unfold encodeChar at hx
  split_ifs at hx with hplain hblank
  · rw [List.mem_singleton.mp hx]
    exact .inl hplain
  · exact .inr (.inl (List.mem_singleton.mp hx))
  · obtain ⟨b, -, hx⟩ := List.mem_flatMap.mp hx
    have hb : b.toNat < 256 := b.toNat_lt
    simp only [List.mem_cons, List.not_mem_nil, or_false] at hx
    rcases hx with rfl | rfl | rfl
    · exact .inr (.inr rfl)
    · exact .inl (isPlain_hexDigit (by omega))
    · exact .inl (isPlain_hexDigit (by omega))

/-- A character that is not plain and stands for nothing else does not come up in a text in form. -/
theorem not_mem_encodeText (hplain : isPlain x = false) (hplus : x ≠ '+') (hpercent : x ≠ '%') :
    x ∉ (encodeText s).toList := by
  intro h
  rcases of_mem_encodeText h with h | h | h
  · rw [hplain] at h
    cases h
  · exact hplus h
  · exact hpercent h

theorem toList_encodePair :
    (encodePair p).toList = (encodeText p.1).toList ++ '=' :: (encodeText p.2).toList := by
  rw [encodePair, String.toList_append, String.toList_append, List.append_assoc]
  rfl

theorem encodePair_ne_nil : (encodePair p).toList ≠ [] := by
  rw [toList_encodePair]
  simp

theorem not_mem_encodePair (hplain : isPlain x = false) (hplus : x ≠ '+') (hpercent : x ≠ '%')
    (hequals : x ≠ '=') : x ∉ (encodePair p).toList := by
  rw [toList_encodePair, List.mem_append, List.mem_cons, not_or, not_or]
  exact ⟨not_mem_encodeText hplain hplus hpercent, hequals,
    not_mem_encodeText hplain hplus hpercent⟩

theorem decodePair_encodePair : decodePair (encodePair p).toList = some p := by
  have hname : '=' ∉ (encodeText p.1).toList :=
    not_mem_encodeText (by decide) (by decide) (by decide)
  unfold decodePair
  rw [toList_encodePair, Text.cutFirst_append hname]
  simp only [Option.getD_some, decodeText_encodeText]
  rfl

theorem toList_encode :
    (encode pairs).toList = ['&'].intercalate (pairs.map fun p => (encodePair p).toList) := by
  rw [encode, String.toList_intercalate, List.map_map]
  rfl

theorem not_mem_encode (hplain : isPlain x = false) (hplus : x ≠ '+') (hpercent : x ≠ '%')
    (hequals : x ≠ '=') (hand : x ≠ '&') : x ∉ (encode pairs).toList := by
  rw [toList_encode]
  apply Text.not_mem_intercalate hand
  intro part hpart
  obtain ⟨p, -, rfl⟩ := List.mem_map.mp hpart
  exact not_mem_encodePair hplain hplus hpercent hequals

/-- What pairs are written as stands for the pairs. -/
theorem decode_encode (pairs : List (String × String)) :
    decode (encode pairs).toList = some pairs := by
  have hpairs : (pairs.map fun p => (encodePair p).toList).mapM decodePair = some pairs := by
    induction pairs with
    | nil => rfl
    | cons p pairs ih =>
      rw [List.map_cons, List.mapM_cons, decodePair_encodePair, ih]
      rfl
  have hparts : ∀ part ∈ pairs.map fun p => (encodePair p).toList, '&' ∉ part := by
    intro part hpart
    obtain ⟨p, -, rfl⟩ := List.mem_map.mp hpart
    exact not_mem_encodePair (by decide) (by decide) (by decide) (by decide)
  have hfull : ∀ part ∈ pairs.map fun p => (encodePair p).toList, (!part.isEmpty) = true := by
    intro part hpart
    obtain ⟨p, -, rfl⟩ := List.mem_map.mp hpart
    simpa using encodePair_ne_nil
  rw [decode, toList_encode]
  cases pairs with
  | nil => rfl
  | cons p pairs =>
    rw [List.splitOn_intercalate '&' hparts (by simp), List.filter_eq_self.mpr hfull, hpairs]

end

end Form

end Decommission
