import Decommission.Json.Layout
import Decommission.Json.Record
import Decommission.Text.Segment

/-! References to resources by their full path. -/
namespace Decommission

open Json.Check

/-- The path of a resource, which ends in its name. -/
structure Reference where
  path : String
  deriving DecidableEq, Repr

namespace Reference

/-- The last segment of the path. -/
def name (r : Reference) : String := String.ofList (Text.lastSegment '/' r.path.toList)

def ofJson? (v : Json) : Option Reference := do
  let r ← Json.Record.of? ["id"] v
  some ⟨← r.require "id" Json.text?⟩

def toJson (r : Reference) : Json := .ofFields [("id", .ofText r.path)]

def check : Json.Check :=
  record "IdReference" [required "id" text]

end Reference

end Decommission
