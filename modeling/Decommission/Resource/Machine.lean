import Decommission.Resource.Reference

/-! Virtual machines, as far as their removal looks at them. -/
namespace Decommission

open Json.Check

/-- The disk that a machine starts from. A disk kept as a blob has the address of that blob. -/
structure SystemDisk where
  name : Option String
  blobUri : Option String
  deriving DecidableEq, Repr

structure StorageProfile where
  systemDisk : Option SystemDisk
  deriving DecidableEq, Repr

structure Machine where
  path : String
  name : String
  location : String
  storage : StorageProfile
  networkInterfaces : List Reference
  provisioningState : Option String
  deriving DecidableEq, Repr

namespace SystemDisk

def blobOfJson? (v : Json) : Option String := do
  (← Json.Record.of? ["uri"] v).require "uri" Json.text?

def ofJson? (v : Json) : Option SystemDisk := do
  let r ← Json.Record.of? ["name", "vhd"] v
  some {
    name := ← r.getD "name" (Json.nullable Json.text?) none
    blobUri := ← r.getD "vhd" (Json.nullable blobOfJson?) none }

def toJson (d : SystemDisk) : Json :=
  .ofFields [("name", .ofOption .ofText d.name),
    ("vhd", .ofOption (fun uri => .ofFields [("uri", .ofText uri)]) d.blobUri)]

def check : Json.Check :=
  record "OsDisk" [
    defaulted "name" (optional text),
    defaulted "vhd" (optional (record "VirtualHardDisk" [required "uri" text]))]

end SystemDisk

namespace StorageProfile

/-- A profile without a disk. -/
def empty : StorageProfile := ⟨none⟩

def ofJson? (v : Json) : Option StorageProfile := do
  let r ← Json.Record.of? ["osDisk"] v
  some ⟨← r.getD "osDisk" (Json.nullable SystemDisk.ofJson?) none⟩

def toJson (p : StorageProfile) : Json :=
  .ofFields [("osDisk", .ofOption SystemDisk.toJson p.systemDisk)]

def check : Json.Check :=
  record "StorageProfile" [defaulted "osDisk" (optional SystemDisk.check)]

/-- The storage account that holds the disk: the first label of the host in the disk's address. -/
def account? (p : StorageProfile) : Option String := do
  let disk ← p.systemDisk
  let uri ← disk.blobUri
  let rest := Text.afterMark "://".toList uri.toList
  let host := Text.upTo (fun c => c == '/' || c == ':') rest
  let account := Text.upTo (fun c => c == '.') host
  if account.isEmpty then none else some (String.ofList account)

end StorageProfile

namespace Machine

def networkOfJson? (v : Json) : Option (List Reference) := do
  (← Json.Record.of? ["networkInterfaces"] v).getD "networkInterfaces"
    (Json.listOf Reference.ofJson?) []

/-- The storage profile, the network interfaces and the provisioning state. -/
def propertiesOfJson? (v : Json) : Option (StorageProfile × List Reference × Option String) := do
  let r ← Json.Record.of? ["storageProfile", "networkProfile", "provisioningState"] v
  some (← r.getD "storageProfile" StorageProfile.ofJson? .empty,
    ← r.getD "networkProfile" networkOfJson? [],
    ← r.getD "provisioningState" (Json.nullable Json.text?) none)

def ofJson? (v : Json) : Option Machine := do
  let r ← Json.Record.of? ["id", "name", "location", "properties"] v
  let path ← r.getD "id" Json.text? ""
  let name ← r.require "name" Json.text?
  let location ← r.getD "location" Json.text? ""
  let (storage, networkInterfaces, provisioningState) ←
    r.getD "properties" propertiesOfJson? (.empty, [], none)
  some { path, name, location, storage, networkInterfaces, provisioningState }

def toJson (m : Machine) : Json :=
  .ofFields [("id", .ofText m.path), ("name", .ofText m.name), ("location", .ofText m.location),
    ("properties", .ofFields [
      ("storageProfile", m.storage.toJson),
      ("networkProfile", .ofFields [
        ("networkInterfaces", .array (m.networkInterfaces.map Reference.toJson))]),
      ("provisioningState", .ofOption .ofText m.provisioningState)])]

def check : Json.Check :=
  record "VirtualMachine" [
    defaulted "id" text,
    required "name" text,
    defaulted "location" text,
    defaulted "properties" (record "VirtualMachineProperties" [
      defaulted "storageProfile" StorageProfile.check,
      defaulted "networkProfile" (record "NetworkProfile" [
        defaulted "networkInterfaces" (list Reference.check)]),
      defaulted "provisioningState" (optional text)])]

def layout : Json.Layout Machine := ⟨ofJson?, check⟩

end Machine

end Decommission
