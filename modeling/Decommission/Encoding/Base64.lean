import Decommission.Text.Octets

/-!
The standard base64 alphabet with padding. Reading is canonical: the padding is required and the
bits that no byte uses are zero.
-/
namespace Decommission.Base64

def alphabet : List Char :=
  "ABCDEFGHIJKLMNOPQRSTUVWXYZabcdefghijklmnopqrstuvwxyz0123456789+/".toList

/-- The digit of a value below 64. -/
def digit (v : Nat) : Char := alphabet.getD v 'A'

def value? (c : Char) : Option Nat :=
  if 'A' ≤ c ∧ c ≤ 'Z' then some (c.toNat - 65)
  else if 'a' ≤ c ∧ c ≤ 'z' then some (c.toNat - 71)
  else if '0' ≤ c ∧ c ≤ '9' then some (c.toNat + 4)
  else if c = '+' then some 62
  else if c = '/' then some 63
  else none

def encodeBytes : List UInt8 → List Char
  | [] => []
  | [a] =>
    let n := a.toNat
    [digit (n / 4), digit (n % 4 * 16), '=', '=']
  | [a, b] =>
    let n := a.toNat * 256 + b.toNat
    [digit (n / 1024), digit (n / 16 % 64), digit (n % 16 * 4), '=']
  | a :: b :: c :: rest =>
    let n := (a.toNat * 256 + b.toNat) * 256 + c.toNat
    digit (n / 262144) :: digit (n / 4096 % 64) :: digit (n / 64 % 64) :: digit (n % 64) ::
      encodeBytes rest

def encode (bytes : List UInt8) : String := String.ofList (encodeBytes bytes)

/-- Why a text is no encoding. Bytes are given by number, and the first has the offset 0. -/
inductive Error where
  | symbol (byte offset : Nat)
  /-- The first of the symbols that make a last byte stands alone. -/
  | length (length : Nat)
  /-- The last symbol has bits that no byte uses. -/
  | lastSymbol (byte offset : Nat)
  | padding
  deriving DecidableEq, Repr

def Error.message : Error → String
  | symbol byte offset =>
    "Invalid symbol " ++ toString byte ++ ", offset " ++ toString offset ++ "."
  | length n => "Invalid input length: " ++ toString n
  | lastSymbol byte offset =>
    "Invalid last symbol " ++ toString byte ++ ", offset " ++ toString offset ++ "."
  | padding => "Invalid padding"

/-- The values of symbols, the first of them at `offset`. -/
def values : (offset : Nat) → List Char → Except Error (List Nat)
  | _, [] => .ok []
  | offset, c :: cs =>
    match value? c with
    | none => .error (.symbol c.toNat offset)
    | some v => (values (offset + 1) cs).map (v :: ·)

/-- The bytes of a full group of values. -/
def groupBytes (x y z w : Nat) : List UInt8 :=
  let n := ((x * 64 + y) * 64 + z) * 64 + w
  [UInt8.ofNat (n / 65536), UInt8.ofNat (n / 256 % 256), UInt8.ofNat (n % 256)]

/-- The bytes of the last group, which starts at `offset` and may be padded. -/
def decodeLast (offset : Nat) (cs : List Char) : Except Error (List UInt8) := do
  let (symbols, pads) := cs.span fun c => c != '='
  let stop := offset + symbols.length
  let vs ← values offset symbols
  if !pads.isEmpty ∧ (symbols.length < 2 ∨ pads.any fun c => c != '=') then
    .error (.symbol '='.toNat stop)
  else if symbols.length = 1 then .error (.length stop)
  else if cs.length % 4 ≠ 0 then .error .padding
  else
    let unused : Error := .lastSymbol (symbols.getLastD '=').toNat (stop - 1)
    match vs with
    | [x, y, z, w] => .ok (groupBytes x y z w)
    | [x, y, z] => if z % 4 = 0 then .ok ((groupBytes x y z 0).take 2) else .error unused
    | [x, y] => if y % 16 = 0 then .ok ((groupBytes x y 0 0).take 1) else .error unused
    | _ => .ok []

/-- The bytes of all groups from `offset` on. Only the last one may be padded. -/
def decodeFrom : (offset : Nat) → List Char → Except Error (List UInt8)
  | offset, a :: b :: c :: d :: e :: rest => do
    match ← values offset [a, b, c, d] with
    | [x, y, z, w] => .ok (groupBytes x y z w ++ (← decodeFrom (offset + 4) (e :: rest)))
    | _ => .ok []
  | offset, cs => decodeLast offset cs

/-- A symbol that stands alone after full groups is looked at before them. -/
def strayLast? (cs : List Char) : Option Error :=
  match cs.getLast? with
  | some c =>
    if cs.length % 4 = 1 ∧ c ≠ '=' ∧ (value? c).isNone then
      some (.symbol c.toNat (cs.length - 1))
    else none
  | none => none

def decode (s : String) : Except Error (List UInt8) :=
  let cs := Text.octets s
  match strayLast? cs with
  | some e => .error e
  | none => decodeFrom 0 cs

end Decommission.Base64
