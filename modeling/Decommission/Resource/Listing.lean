import Decommission.Json.Layout
import Decommission.Json.Record

/-! Pages of a listing of resources. -/
namespace Decommission

open Json.Check

/-- The names on a page, and the address of the next page. -/
structure ListingPage where
  names : List String
  next : Option String
  deriving DecidableEq, Repr

namespace ListingPage

def nameOfJson? (v : Json) : Option String := do
  (← Json.Record.of? ["name"] v).require "name" Json.text?

def ofJson? (v : Json) : Option ListingPage := do
  let r ← Json.Record.of? ["value", "nextLink"] v
  some {
    names := ← r.getD "value" (Json.listOf nameOfJson?) []
    next := ← r.getD "nextLink" (Json.nullable Json.text?) none }

def check : Json.Check :=
  record "ResourceList" [
    defaulted "value" (list (record "NamedResource" [required "name" text])),
    defaulted "nextLink" (optional text)]

def layout : Json.Layout ListingPage := ⟨ofJson?, check⟩

end ListingPage

end Decommission
