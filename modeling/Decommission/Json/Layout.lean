import Decommission.Json.Check
import Decommission.Json.Reader

/-! How values are written in documents: what a document means, and what is wrong with one. -/
namespace Decommission.Json

/-- The reading of values, and the check that finds the first flaw of a text that has no reading. -/
structure Layout (α : Type) where
  ofJson? : Json → Option α
  check : Check

/-- The value that the text writes, or its first fault if one is found. -/
def Layout.read {α : Type} (layout : Layout α) (text : String) : Except (Option Fault) α :=
  match (read? text).bind layout.ofJson? with
  | some a => .ok a
  | none => .error (fault? layout.check text)

end Decommission.Json
