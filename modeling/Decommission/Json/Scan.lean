import Decommission.Json.Fault
import Decommission.Json.Token
import Decommission.Text.Octets

/-!
Scanning a document byte by byte for the first flaw in it.
-/
namespace Decommission.Json

/-- A flaw, and what follows the place where it shows. -/
structure Snag where
  flaw : Flaw
  rest : List Char
  deriving DecidableEq, Repr

/-- Scans the start of the bytes, and gives the rest. -/
abbrev Scan := List Char → Except Snag (List Char)

def snag {α : Type} (flaw : Flaw) (rest : List Char) : Except Snag α := .error ⟨flaw, rest⟩

def skipSpace (cs : List Char) : List Char := cs.dropWhile isSpace

/-- These letters and no others. -/
def scanWord : (letters : List Char) → Scan
  | [], cs => .ok cs
  | _ :: _, [] => snag .endOfValue []
  | l :: letters, c :: cs => if c = l then scanWord letters cs else snag .noWord cs

/-! ### Strings -/

/-- What the next byte of a string belongs to. -/
inductive TextState where
  | plain
  /-- A backslash was read. -/
  | escape
  /-- The digits of a code unit, of which some are read, newest first; a high surrogate may stand
  before it. -/
  | unit (high : Option Nat) (digits : List Char)
  /-- The escape of a low surrogate has to come. -/
  | second (high : Nat)
  | secondEscape (high : Nat)
  deriving DecidableEq, Repr

/-- What comes after a code unit, and the bytes that it adds. In a string that is passed over, no unit
adds any. -/
def TextState.afterUnit (kept : Bool) (high : Option Nat) (n : Nat) :
    Except Flaw (TextState × List Char) :=
  if !kept then .ok (.plain, [])
  else match high with
    | some high =>
      if isLowSurrogate n then .ok (.plain, Text.octets (String.singleton (ofSurrogates high n)))
      else .error .loneSurrogate
    | none =>
      if isLowSurrogate n then .error .loneSurrogate
      else if isHighSurrogate n then .ok (.second n, [])
      else .ok (.plain, Text.octets (String.singleton (Char.ofNat n)))

/-- Scans a string to its closing quote. `done` holds its bytes so far, newest first. -/
def scanTextFrom (kept : Bool) :
    TextState → (done : List Char) → List Char → Except Snag (List Char × List Char)
  | _, _, [] => snag .endOfText []
  | .plain, done, c :: cs =>
    if c = '"' then .ok (done.reverse, cs)
    else if c = '\\' then scanTextFrom kept .escape done cs
    else if c.toNat < 0x20 then snag .controlCharacter (if kept then cs else c :: cs)
    else scanTextFrom kept .plain (c :: done) cs
  | .escape, done, c :: cs =>
    if c = 'u' then scanTextFrom kept (.unit none []) done cs
    else match unescape? c with
      | some e => scanTextFrom kept .plain (e :: done) cs
      | none => snag .badEscape cs
  | .unit high [y, x, w], done, z :: cs =>
    match hexValues? w x y z with
    | none => snag .badEscape cs
    | some n =>
      match TextState.afterUnit kept high n with
      | .ok (state, added) => scanTextFrom kept state (added.reverse ++ done) cs
      | .error flaw => snag flaw cs
  | .unit high digits, done, c :: cs => scanTextFrom kept (.unit high (c :: digits)) done cs
  | .second high, done, c :: cs =>
    if c = '\\' then scanTextFrom kept (.secondEscape high) done cs
    else snag .noSecondSurrogate cs
  | .secondEscape high, done, c :: cs =>
    if c = 'u' then scanTextFrom kept (.unit (some high) []) done cs
    else snag .noSecondSurrogate cs

/-- The text of a string whose opening quote has been read. -/
def scanText (cs : List Char) : Except Snag (String × List Char) :=
  (scanTextFrom true .plain [] cs).map fun p => (Text.ofOctets p.1, p.2)

/-- Passes over a string whose opening quote has been read. Surrogates need no partner here. -/
def skipText : Scan := fun cs => (scanTextFrom false .plain [] cs).map Prod.snd

/-! ### Numbers -/

/-- The parts of a number. -/
structure Numeral where
  negative : Bool
  whole : List Char
  /-- The digits after the point, none if there is no point. -/
  fraction : List Char
  /-- The sign and the digits of the power of ten. -/
  power : Option (Bool × List Char)
  deriving DecidableEq, Repr

/-- One digit at least; `atEnd` is the flaw of bytes that end before it. -/
def scanDigits (atEnd : Flaw) (cs : List Char) : Except Snag (List Char × List Char) :=
  match cs.span Char.isDigit with
  | ([], []) => snag atEnd []
  | ([], _ :: cs) => snag .badNumber cs
  | (digits, cs) => .ok (digits, cs)

/-- A single zero, or digits that start with another one. -/
def scanWhole (atEnd : Flaw) : List Char → Except Snag (List Char × List Char)
  | '0' :: c :: cs => if c.isDigit then snag .badNumber cs else .ok (['0'], c :: cs)
  | cs => scanDigits atEnd cs

def scanPower (atEnd : Flaw) (cs : List Char) :
    Except Snag (Option (Bool × List Char) × List Char) :=
  match cs with
  | 'e' :: '-' :: cs | 'E' :: '-' :: cs =>
    (scanDigits atEnd cs).map fun p => (some (true, p.1), p.2)
  | 'e' :: '+' :: cs | 'E' :: '+' :: cs | 'e' :: cs | 'E' :: cs =>
    (scanDigits atEnd cs).map fun p => (some (false, p.1), p.2)
  | cs => .ok (none, cs)

def scanUnsigned (atEnd : Flaw) (negative : Bool) (cs : List Char) :
    Except Snag (Numeral × List Char) := do
  let (whole, cs) ← scanWhole atEnd cs
  let (fraction, cs) ← match cs with
    | '.' :: cs => scanDigits atEnd cs
    | cs => .ok ([], cs)
  let (power, cs) ← scanPower atEnd cs
  .ok ({ negative, whole, fraction, power }, cs)

def scanNumeral (atEnd : Flaw) : List Char → Except Snag (Numeral × List Char)
  | '-' :: cs => scanUnsigned atEnd true cs
  | cs => scanUnsigned atEnd false cs

/-- The number that the digits write after `n`, as far as it stays below `limit`, and the digits that
are left then. -/
def readBelow (limit : Nat) : Nat → List Char → Nat × List Char
  | n, [] => (n, [])
  | n, c :: cs =>
    let next := n * 10 + (c.toNat - 48)
    if next < limit then readBelow limit next cs else (n, c :: cs)

/-- The greatest power of ten in double precision. -/
def greatestPower : Nat := 308

def powerOfTen (n : Nat) : BinaryFraction := Precision.double.ofNat (Nat.pow 10 n)

/-- Divides by a power of ten, in steps of the greatest one. -/
def scaleDown (x : BinaryFraction) (n : Nat) : BinaryFraction :=
  if n ≤ greatestPower then Precision.double.quotient x (powerOfTen n)
  else if x.mantissa = 0 then x
  else scaleDown (Precision.double.quotient x (powerOfTen greatestPower)) (n - greatestPower)
termination_by n
decreasing_by simp only [greatestPower] at *; omega

/-- The size of `significand * 10 ^ power`; `none` if it is too great. -/
def scaled? (significand : Nat) (power : Int) : Option BinaryFraction :=
  let x := Precision.double.ofNat significand
  if power < 0 then some (scaleDown x power.natAbs)
  else if significand = 0 then some x
  else if greatestPower < power.toNat then none
  else
    let y := Precision.double.product x (powerOfTen power.toNat)
    if Precision.double.isFinite y then some y else none

namespace Numeral

/-- The value of a number; `rest` follows it. Numbers without a point or a power are integers if they
fit into 64 bits and are not a negative zero. Of any other number the first digits count that make a
number of 64 bits. -/
def found (n : Numeral) (rest : List Char) : Except Snag (Found × List Char) :=
  let floating (size : Option BinaryFraction) : Except Snag (Found × List Char) :=
    match size with
    | some size => .ok (.floating ⟨n.negative, size⟩, rest)
    | none => snag .hugeNumber rest
  let (whole, beyond) := readBelow (Nat.pow 2 64) 0 n.whole
  let (significand, unread) := readBelow (Nat.pow 2 64) whole n.fraction
  let shift : Int := (beyond.length : Int) - (n.fraction.length - unread.length)
  match n.power with
  | none =>
    if beyond.isEmpty ∧ n.fraction.isEmpty then
      if !n.negative then .ok (.integer whole, rest)
      else if 0 < whole ∧ whole ≤ Nat.pow 2 63 then .ok (.integer (-whole), rest)
      else floating (some (Precision.double.ofNat whole))
    else floating (scaled? significand shift)
  | some (negative, digits) =>
    match readBelow (Nat.pow 2 31) 0 digits with
    | (power, []) => floating (scaled? significand (if negative then shift - power else shift + power))
    | (_, _ :: left) =>
      if significand = 0 ∨ negative then floating (some .zero)
      else snag .hugeNumber (left ++ rest)

end Numeral

/-! ### Values -/

/-- The value at the start of the bytes, which is none of the expected kind. -/
def scanFound : List Char → Except Snag (Found × List Char)
  | [] => snag .endOfValue []
  | '[' :: cs => .ok (.array, '[' :: cs)
  | '{' :: cs => .ok (.object, '{' :: cs)
  | '"' :: cs => (scanText cs).map fun p => (.text p.1, p.2)
  | 'n' :: cs => (scanWord ['u', 'l', 'l'] cs).map fun cs => (.null, cs)
  | 't' :: cs => (scanWord ['r', 'u', 'e'] cs).map fun cs => (.bool true, cs)
  | 'f' :: cs => (scanWord ['a', 'l', 's', 'e'] cs).map fun cs => (.bool false, cs)
  | c :: cs =>
    if c = '-' ∨ c.isDigit then
      (scanNumeral .endOfValue (c :: cs)).bind fun p => p.1.found p.2
    else snag .noValue cs

/-- Passes over a value that is no container. -/
def skipScalar : Scan
  | [] => snag .endOfValue []
  | '"' :: cs => skipText cs
  | 'n' :: cs => scanWord ['u', 'l', 'l'] cs
  | 't' :: cs => scanWord ['r', 'u', 'e'] cs
  | 'f' :: cs => scanWord ['a', 'l', 's', 'e'] cs
  | c :: cs =>
    if c = '-' ∨ c.isDigit then (scanNumeral .badNumber (c :: cs)).map Prod.snd
    else snag .noValue cs

inductive Bracket where
  | array
  | object
  deriving DecidableEq, Repr

/-- Where a scan stands that passes over a value: before a value, after an opening bracket, or after a
value. -/
inductive SkipState where
  | value
  | opened
  | after
  deriving DecidableEq, Repr

/-- The colon after a key. -/
def scanColon : Scan := fun cs =>
  match skipSpace cs with
  | ':' :: cs => .ok cs
  | [] => snag .endOfObject []
  | _ :: cs => snag .noColon cs

/-- Passes over a key and its colon. -/
def skipKey : Scan := fun cs =>
  match skipSpace cs with
  | '"' :: cs => (skipText cs).bind scanColon
  | [] => snag .endOfObject []
  | _ :: cs => snag .noKey cs

/-- Passes over a value in at most `fuel` steps. The brackets that are open are kept on a stack, so it
may be nested to any depth. -/
def skipWith : (fuel : Nat) → SkipState → List Bracket → Scan
  | 0, _, _, _ => snag .endOfValue []
  | _ + 1, .after, [], cs => .ok cs
  | fuel + 1, state, stack, cs =>
    match state, stack, skipSpace cs with
    | .value, stack, '[' :: cs => skipWith fuel .opened (.array :: stack) cs
    | .value, stack, '{' :: cs => skipWith fuel .opened (.object :: stack) cs
    | .value, stack, cs => (skipScalar cs).bind (skipWith fuel .after stack)
    | _, .array :: stack, ']' :: cs => skipWith fuel .after stack cs
    | _, .object :: stack, '}' :: cs => skipWith fuel .after stack cs
    | _, .array :: _, [] => snag .endOfArray []
    | _, .object :: _, [] => snag .endOfObject []
    | .opened, .array :: stack, cs => skipWith fuel .value (.array :: stack) cs
    | .opened, .object :: stack, cs =>
      (skipKey cs).bind (skipWith fuel .value (.object :: stack))
    | .after, .array :: stack, ',' :: cs => skipWith fuel .value (.array :: stack) cs
    | .after, .object :: stack, ',' :: cs =>
      (skipKey cs).bind (skipWith fuel .value (.object :: stack))
    | .after, .array :: _, _ :: cs => snag .noArrayComma cs
    | .after, .object :: _, _ :: cs => snag .noObjectComma cs
    | _, [], cs => .ok cs

/-- Passes over a value of any kind in a text of at most `bound` bytes: each step but one takes a byte,
or is followed by one that does. -/
def skipValue (bound : Nat) : Scan := skipWith (2 * bound + 2) .value []

end Decommission.Json
