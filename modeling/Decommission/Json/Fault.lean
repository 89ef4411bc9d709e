import Decommission.Number.Shortest
import Decommission.Text.Quoted

/-! What keeps a text from being the document that is expected, and where in the text it shows. -/
namespace Decommission.Json

/-- A number that is no integer, in double precision. -/
structure Floating where
  negative : Bool
  size : BinaryFraction
  deriving DecidableEq, Repr

namespace Floating

/-- Digits with the point after the first `whole` of them. -/
def positional (digits : List Char) (whole : Int) : List Char :=
  if whole ≤ 0 then ['0', '.'] ++ List.replicate (-whole).toNat '0' ++ digits
  else
    let digits := digits ++ List.replicate (whole.toNat - digits.length) '0'
    match digits.drop whole.toNat with
    | [] => digits ++ ['.', '0']
    | rest => digits.take whole.toNat ++ '.' :: rest

/-- One digit before the point, and the power of ten. -/
def scientific (digits : List Char) (power : Int) : List Char :=
  (match digits with
    | first :: second :: rest => first :: '.' :: second :: rest
    | digits => digits) ++ 'e' :: (if power < 0 then [] else ['+']) ++ (toString power).toList

/-- The fewest digits that identify the number, positional from `10 ^ -5` to below `10 ^ 16`. -/
def sizeText (x : BinaryFraction) : List Char :=
  if x.mantissa = 0 then ['0', '.', '0']
  else
    let d := Precision.double.shortest x
    let digits := Nat.toDigits 10 d.digits
    let whole := digits.length + d.exponent
    if -5 < whole ∧ whole ≤ 16 then positional digits whole else scientific digits (whole - 1)

def text (x : Floating) : String :=
  String.ofList ((if x.negative then ['-'] else []) ++ sizeText x.size)

end Floating

/-- A value that stands where another kind of value is expected. -/
inductive Found where
  | null
  | bool (b : Bool)
  | integer (n : Int)
  | floating (x : Floating)
  | text (s : String)
  | array
  | object
  deriving DecidableEq, Repr

def Found.name : Found → String
  | null => "null"
  | bool b => "boolean `" ++ (if b then "true" else "false") ++ "`"
  | integer n => "integer `" ++ toString n ++ "`"
  | floating x => "floating point `" ++ x.text ++ "`"
  | text s => "string " ++ Text.quoted s
  | array => "sequence"
  | object => "map"

/-- What is wrong. -/
inductive Flaw where
  | endOfArray
  | endOfObject
  | endOfText
  | endOfValue
  | noColon
  | noArrayComma
  | noObjectComma
  | noKey
  | noWord
  | noValue
  | badEscape
  | badNumber
  | hugeNumber
  | controlCharacter
  | loneSurrogate
  | noSecondSurrogate
  | trailingComma
  | trailingText
  | otherType (found : Found) (expected : String)
  | otherLength (length : Nat) (expected : String)
  | missingField (name : String)
  | duplicateField (name : String)
  deriving DecidableEq, Repr

def Flaw.message : Flaw → String
  | endOfArray => "EOF while parsing a list"
  | endOfObject => "EOF while parsing an object"
  | endOfText => "EOF while parsing a string"
  | endOfValue => "EOF while parsing a value"
  | noColon => "expected `:`"
  | noArrayComma => "expected `,` or `]`"
  | noObjectComma => "expected `,` or `\x7d`"
  | noKey => "key must be a string"
  | noWord => "expected ident"
  | noValue => "expected value"
  | badEscape => "invalid escape"
  | badNumber => "invalid number"
  | hugeNumber => "number out of range"
  | controlCharacter => "control character (\\u0000-\\u001F) found while parsing a string"
  | loneSurrogate => "lone leading surrogate in hex escape"
  | noSecondSurrogate => "unexpected end of hex escape"
  | trailingComma => "trailing comma"
  | trailingText => "trailing characters"
  | otherType found expected => "invalid type: " ++ found.name ++ ", expected " ++ expected
  | otherLength length expected =>
    "invalid length " ++ toString length ++ ", expected " ++ expected
  | missingField name => "missing field `" ++ name ++ "`"
  | duplicateField name => "duplicate field `" ++ name ++ "`"

/-- A flaw, the line in which it shows, and how many bytes of that line were read until then. -/
structure Fault where
  flaw : Flaw
  line : Nat
  column : Nat
  deriving DecidableEq, Repr

def Fault.message (f : Fault) : String :=
  f.flaw.message ++ " at line " ++ toString f.line ++ " column " ++ toString f.column

end Decommission.Json
