import Decommission.Json.Value

/-!
Values with named fields. They are written as an object, where fields of other names are passed
over, or as the array of the fields in their order, where fields at the end may be missing.
-/
namespace Decommission.Json

/-- A value with named fields, and whether the names are written. -/
structure Record where
  named : Bool
  fields : List (String × Json)

/-- The members whose keys are among `names`; `none` if such a key stands twice or any key has no
text. -/
def knownFields (names : List String) : List (Option String × Json) → Option (List (String × Json))
  | [] => some []
  | (none, _) :: _ => none
  | (some key, value) :: rest =>
    match knownFields names rest with
    | none => none
    | some fields =>
      if key ∈ names then
        if fields.any fun p => p.1 == key then none else some ((key, value) :: fields)
      else some fields

/-- The fields that the value writes for a record with these names in this order. -/
def Record.of? (names : List String) : Json → Option Record
  | .object members => (knownFields names members).map fun fields => ⟨true, fields⟩
  | .array items => if items.length ≤ names.length then some ⟨false, names.zip items⟩ else none
  | _ => none

namespace Record

variable {α : Type}

def get? (r : Record) (name : String) : Option Json := r.fields.lookup name

/-- A field that must be written. -/
def require (r : Record) (name : String) (decode : Json → Option α) : Option α :=
  (r.get? name).bind decode

/-- A field that takes the value `absent` when it is not written. -/
def getD (r : Record) (name : String) (decode : Json → Option α) (absent : α) : Option α :=
  match r.get? name with
  | none => some absent
  | some v => decode v

/-- A field that may be missing where names are written. -/
def getIfNamed (r : Record) (name : String) (decode : Json → Option (Option α)) :
    Option (Option α) :=
  match r.get? name with
  | none => if r.named then some none else none
  | some v => decode v

end Record

variable {α : Type}

def text? : Json → Option String
  | .text s => s
  | _ => none

/-- `null`, or a value that `decode` takes. -/
def nullable (decode : Json → Option α) : Json → Option (Option α)
  | .null => some none
  | v => (decode v).map some

def listOf (decode : Json → Option α) : Json → Option (List α)
  | .array items => items.mapM decode
  | _ => none

end Decommission.Json
