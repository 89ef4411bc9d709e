import Decommission.Resource.Reference

/-! Network interface cards and the public addresses that they carry. -/
namespace Decommission

open Json.Check

/-- One address of a card, with the public address that belongs to it, if there is one. -/
structure IpConfiguration where
  name : String
  publicAddress : Option Reference
  deriving DecidableEq, Repr

structure NetworkCard where
  path : String
  name : String
  configurations : List IpConfiguration
  deriving DecidableEq, Repr

namespace IpConfiguration

def addressOfJson? (v : Json) : Option (Option Reference) := do
  (← Json.Record.of? ["publicIPAddress"] v).getD "publicIPAddress"
    (Json.nullable Reference.ofJson?) none

def ofJson? (v : Json) : Option IpConfiguration := do
  let r ← Json.Record.of? ["name", "properties"] v
  some {
    name := ← r.getD "name" Json.text? ""
    publicAddress := ← r.getD "properties" addressOfJson? none }

def toJson (c : IpConfiguration) : Json :=
  .ofFields [("name", .ofText c.name),
    ("properties", .ofFields [("publicIPAddress", .ofOption Reference.toJson c.publicAddress)])]

def check : Json.Check :=
  record "IpConfiguration" [
    defaulted "name" text,
    defaulted "properties" (record "IpConfigurationProperties" [
      defaulted "publicIPAddress" (optional Reference.check)])]

end IpConfiguration

namespace NetworkCard

def configurationsOfJson? (v : Json) : Option (List IpConfiguration) := do
  (← Json.Record.of? ["ipConfigurations"] v).getD "ipConfigurations"
    (Json.listOf IpConfiguration.ofJson?) []

def ofJson? (v : Json) : Option NetworkCard := do
  let r ← Json.Record.of? ["id", "name", "properties"] v
  some {
    path := ← r.getD "id" Json.text? ""
    name := ← r.require "name" Json.text?
    configurations := ← r.getD "properties" configurationsOfJson? [] }

def toJson (n : NetworkCard) : Json :=
  .ofFields [("id", .ofText n.path), ("name", .ofText n.name),
    ("properties", .ofFields [
      ("ipConfigurations", .array (n.configurations.map IpConfiguration.toJson))])]

def check : Json.Check :=
  record "NetworkInterfaceCard" [
    defaulted "id" text,
    required "name" text,
    defaulted "properties" (record "NetworkInterfaceCardProperties" [
      defaulted "ipConfigurations" (list IpConfiguration.check)])]

def layout : Json.Layout NetworkCard := ⟨ofJson?, check⟩

/-- The names of the public addresses, one for each address that has one, in order. -/
def publicAddressNames (n : NetworkCard) : List String :=
  n.configurations.filterMap fun c => c.publicAddress.map Reference.name

end NetworkCard

end Decommission
