/-! The values of a JSON document. -/
namespace Decommission

/-- A string of a document may hold an escaped surrogate without its partner; it then stands for no
text and is `none`. A numeral is kept as it is written, and the members of an object in their order. -/
inductive Json where
  | null
  | bool (b : Bool)
  | number (numeral : String)
  | text (s : Option String)
  | array (items : List Json)
  | object (members : List (Option String × Json))

namespace Json

/-- A string that is given as text. -/
def ofText (s : String) : Json := .text (some s)

/-- An object whose keys are given as text. -/
def ofFields (fields : List (String × Json)) : Json :=
  .object (fields.map fun p => (some p.1, p.2))

/-- The value under `f`, and `null` for `none`. -/
def ofOption {α : Type} (f : α → Json) : Option α → Json
  | none => .null
  | some a => f a

end Json

end Decommission
