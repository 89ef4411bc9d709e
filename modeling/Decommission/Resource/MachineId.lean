import Decommission.Json.Record
import Decommission.Json.Writer
import Decommission.Text.Segment

/-! The name of a virtual machine outside its region, written `region/name`. -/
namespace Decommission

/-- The two parts of a machine's id. -/
inductive IdPart where
  | region
  | name
  deriving DecidableEq, Repr

def IdPart.label : IdPart → String
  | .region => "region"
  | .name => "id"

/-- Why a text is no id, or two texts make none. -/
inductive IdError where
  | malformed (text : String)
  | empty (part : IdPart)
  | separatorInside (part : IdPart) (text : String)
  deriving DecidableEq, Repr

def IdError.message : IdError → String
  | .malformed text => "id must be in format regionId/id, got: " ++ text
  | .empty part => part.label ++ " cannot be empty"
  | .separatorInside part text => part.label ++ " cannot contain '/': " ++ text

/-- A text that may stand on one side of the separator. -/
def IsIdPart (s : String) : Prop := s ≠ "" ∧ '/' ∉ s.toList

instance (s : String) : Decidable (IsIdPart s) := inferInstanceAs (Decidable (_ ∧ _))

/-- A region, and the name of a machine in it. -/
structure MachineId where
  region : String
  name : String
  region_ok : IsIdPart region
  name_ok : IsIdPart name

instance : DecidableEq MachineId := fun a b =>
  decidable_of_iff (a.region = b.region ∧ a.name = b.name) (by cases a; cases b; simp)

namespace MachineId

/-- What keeps the text from being this part of an id. -/
def partError (part : IdPart) (s : String) : IdError :=
  if s = "" then .empty part else .separatorInside part s

/-- The id of two parts; the region is looked at first. -/
def ofParts (region name : String) : Except IdError MachineId :=
  if hr : IsIdPart region then
    if hn : IsIdPart name then .ok ⟨region, name, hr, hn⟩ else .error (partError .name name)
  else .error (partError .region region)

/-- The id that the text writes with exactly one separator. -/
def decode (text : String) : Except IdError MachineId :=
  match Text.cutFirst '/' text.toList with
  | none => .error (.malformed text)
  | some (region, name) =>
    if '/' ∈ name then .error (.malformed text)
    else ofParts (String.ofList region) (String.ofList name)

def encode (id : MachineId) : String := id.region ++ "/" ++ id.name

/-- An id is shown as its region and its name. -/
instance : ToString MachineId := ⟨fun id => id.region ++ "/" ++ id.name⟩

/-- In a document an id is the string of its encoding. -/
def ofJson? (v : Json) : Option MachineId := v.text?.bind fun s => (decode s).toOption

def toJson (id : MachineId) : Json := .ofText id.encode

end MachineId

end Decommission
