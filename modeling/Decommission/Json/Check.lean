import Decommission.Json.Scan

/-!
The first flaw that keeps a document from being a value of a given form. Records are written as in
their reading: as an object, where fields of other names are passed over, or as an array of the fields
in their order.
-/
namespace Decommission.Json

/-- Scans a value of some form in a text of at most `bound` bytes. -/
abbrev Check := (bound : Nat) → Scan

/-- A field of a record, and the form of its value. -/
structure FieldCheck where
  name : String
  required : Bool
  check : Check

namespace Check

/-- A snag at a value that is not of the expected kind. -/
def otherValue (expected : String) : Scan := fun cs =>
  (scanFound cs).bind fun p => snag (.otherType p.1 expected) p.2

def text : Check := fun _ cs =>
  match skipSpace cs with
  | '"' :: cs => (scanText cs).map Prod.snd
  | cs => otherValue "a string" cs

/-- `null`, or a value of the form. -/
def optional (check : Check) : Check := fun bound cs =>
  match skipSpace cs with
  | 'n' :: cs => scanWord ['u', 'l', 'l'] cs
  | cs => check bound cs

/-- Whether an array goes on with an item, or the rest after its closing bracket. -/
def nextItem (fresh : Bool) (cs : List Char) : Except Snag (Bool × List Char) :=
  match skipSpace cs with
  | [] => snag .endOfArray []
  | ']' :: cs => .ok (false, cs)
  | c :: cs =>
    if fresh then .ok (true, c :: cs)
    else if c = ',' then
      match skipSpace cs with
      | ']' :: cs => snag .trailingComma cs
      | [] => snag .endOfValue []
      | cs => .ok (true, cs)
    else snag .noArrayComma cs

/-- The items of an array, at most `fuel` of them. -/
def itemsWith (check : Scan) : (fuel : Nat) → (fresh : Bool) → Scan
  | 0, _, cs => .ok cs
  | fuel + 1, fresh, cs => do
    match ← nextItem fresh cs with
    | (true, cs) => itemsWith check fuel false (← check cs)
    | (false, cs) => .ok cs

def list (check : Check) : Check := fun bound cs =>
  match skipSpace cs with
  | '[' :: cs => itemsWith (check bound) (bound + 1) true cs
  | cs => otherValue "a sequence" cs

/-- The kind of a record, in words. -/
def recordText (name : String) : String := "struct " ++ name

def recordOfText (name : String) (count : Nat) : String :=
  recordText name ++ " with " ++ toString count ++ (if count = 1 then " element" else " elements")

/-- The end of an array that has as many items as there are fields. -/
def endOfFields : Scan := fun cs =>
  match skipSpace cs with
  | ']' :: cs => .ok cs
  | [] => snag .endOfArray []
  | ',' :: cs =>
    match skipSpace cs with
    | ']' :: cs => snag .trailingComma cs
    | cs => snag .trailingText cs.tail
  | _ :: cs => snag .trailingText cs

/-- The fields in their order, of which `count` came before. -/
def fieldsInOrder (bound : Nat) (expected : String) : (count : Nat) → List FieldCheck → Scan
  | _, [], cs => endOfFields cs
  | count, f :: fields, cs => do
    match ← nextItem (count == 0) cs with
    | (true, cs) => fieldsInOrder bound expected (count + 1) fields (← f.check bound cs)
    | (false, cs) =>
      match (f :: fields).findIdx? FieldCheck.required with
      | some i => snag (.otherLength (count + i) expected) cs
      | none => .ok cs

/-- The key of the next member, or none and the rest after the closing bracket. -/
def nextKey (fresh : Bool) (cs : List Char) : Except Snag (Option String × List Char) :=
  let key (cs : List Char) : Except Snag (Option String × List Char) :=
    (scanText cs).map fun p => (some p.1, p.2)
  match skipSpace cs with
  | [] => snag .endOfObject []
  | '}' :: cs => .ok (none, cs)
  | c :: cs =>
    if fresh then if c = '"' then key cs else snag .noKey cs
    else if c = ',' then
      match skipSpace cs with
      | '"' :: cs => key cs
      | '}' :: cs => snag .trailingComma cs
      | [] => snag .endOfValue []
      | _ :: cs => snag .noKey cs
    else snag .noObjectComma cs

/-- What follows the closing bracket if it comes next. -/
def pastObject (cs : List Char) : List Char :=
  match skipSpace cs with
  | '}' :: cs => cs
  | cs => cs

/-- The members of an object, at most `fuel` of them. The fields in `seen` came before. -/
def membersWith (bound : Nat) (fields : List FieldCheck) :
    (fuel : Nat) → (fresh : Bool) → List String → Scan
  | 0, _, _, cs => .ok cs
  | fuel + 1, fresh, seen, cs => do
    match ← nextKey fresh cs with
    | (none, cs) =>
      match fields.find? fun f => f.required && !seen.contains f.name with
      | some f => snag (.missingField f.name) cs
      | none => .ok cs
    | (some key, cs) =>
      match fields.find? fun f => f.name == key with
      | none => membersWith bound fields fuel false seen (← skipValue bound (← scanColon cs))
      | some f =>
        if seen.contains key then snag (.duplicateField key) (pastObject cs)
        else membersWith bound fields fuel false (key :: seen) (← f.check bound (← scanColon cs))

/-- A record with these fields in this order. -/
def record (name : String) (fields : List FieldCheck) : Check := fun bound cs =>
  match skipSpace cs with
  | '{' :: cs => membersWith bound fields (bound + 1) true [] cs
  | '[' :: cs => fieldsInOrder bound (recordOfText name fields.length) 0 fields cs
  | cs => otherValue (recordText name) cs

/-- A field that must be written. -/
def required (name : String) (check : Check) : FieldCheck := ⟨name, true, check⟩

/-- A field that may be left out. -/
def defaulted (name : String) (check : Check) : FieldCheck := ⟨name, false, check⟩

/-- A value, after which only white space may come. -/
def document (check : Check) : Scan := fun cs => do
  match skipSpace (← check cs.length cs) with
  | [] => .ok []
  | _ :: cs => snag .trailingText cs

end Check

/-- The fault of a snag in a document that starts with `start`. -/
def Snag.fault (s : Snag) (start : List Char) : Fault where
  flaw := s.flaw
  line := start.count '\n' + 1
  column := (start.reverse.takeWhile fun c => c != '\n').length

/-- The first flaw in the document. -/
def fault? (check : Check) (text : String) : Option Fault :=
  let cs := Text.octets text
  match Check.document check cs with
  | .ok _ => none
  | .error s => some (s.fault (cs.take (cs.length - s.rest.length)))

end Decommission.Json
