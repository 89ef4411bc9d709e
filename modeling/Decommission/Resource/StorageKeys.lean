import Decommission.Json.Layout
import Decommission.Json.Record

/-! The access keys of a storage account. -/
namespace Decommission

open Json.Check

structure StorageKeys where
  key1 : String
  key2 : String
  deriving DecidableEq, Repr

namespace StorageKeys

def ofJson? (v : Json) : Option StorageKeys := do
  let r ← Json.Record.of? ["key1", "key2"] v
  some ⟨← r.require "key1" Json.text?, ← r.require "key2" Json.text?⟩

def toJson (k : StorageKeys) : Json :=
  .ofFields [("key1", .ofText k.key1), ("key2", .ofText k.key2)]

def check : Json.Check :=
  record "StorageServiceKeys" [required "key1" text, required "key2" text]

def layout : Json.Layout StorageKeys := ⟨ofJson?, check⟩

end StorageKeys

end Decommission
