import Decommission.Defaults
import Decommission.Program.Server
import Decommission.Simulation.Table
import Decommission.Teardown.Service
import Decommission.Text.Segment

/-!
A cloud in memory: resource groups with their resources, and storage accounts with their containers.
It records each call in a log. Deletions are carried out at once, by operations that settle after a
number of looks at them, or never.
-/
namespace Decommission.Simulation

/-- How a deletion goes on once it was asked for. -/
inductive Pace where
  | immediate
  /-- The operation is in progress for this many looks, and then has this state. -/
  | afterPolls (polls : Nat) (result : OperationStatus)
  | never
  deriving DecidableEq, Repr

/-- What an operation deletes. -/
inductive Target where
  | resource (kind : ResourceKind) (group name : String)
  | group (group : String)
  deriving DecidableEq, Repr

/-- A deletion that was accepted, and the looks until it settles, unless it never does. -/
structure Operation where
  target : Target
  pollsLeft : Option Nat
  result : OperationStatus
  deriving DecidableEq, Repr

/-- An open blob store of the cloud. -/
structure StoreHandle where
  serial : Nat
  account : String
  deriving DecidableEq, Repr

structure Cloud where
  groups : List String := []
  resources : List (ResourceKind × String × String) := []
  machines : Table (String × String) Machine := []
  cards : Table (String × String) NetworkCard := []
  keys : Table (String × String) StorageKeys := []
  containers : List (String × String) := []
  imageAccounts : List String := []
  pace : Pace := .immediate
  paces : Table (ResourceKind × String) Pace := []
  groupPace : Pace := .immediate
  operations : Table String Operation := []
  operationCount : Nat := 0
  keysDenied : Bool := false
  blobsDown : Bool := false
  openedStores : Nat := 0
  /-- The serial numbers of the stores that were closed. -/
  closedStores : List Nat := []
  log : List (Teardown.Call String) := []

/-- The full path of a resource of the cloud. -/
def resourcePath (kind : ResourceKind) (group name : String) : String :=
  "/subscriptions/00000000-0000-0000-0000-000000000000/resourceGroups/" ++ group ++ "/providers/" ++
    kind.providerPath ++ "/" ++ name

namespace Cloud

/-! ### Setting up -/

def addResource (c : Cloud) (kind : ResourceKind) (group name : String) : Cloud :=
  { c with
    groups := addOnce group c.groups
    resources := addOnce (kind, group, name) c.resources }

def addGroup (c : Cloud) (group : String) : Cloud := { c with groups := addOnce group c.groups }

def addPublicAddress (c : Cloud) (group name : String) : Cloud :=
  c.addResource .publicAddress group name

/-- The record of a network card that carries these public addresses. -/
def cardRecord (group name : String) (addresses : List String) : NetworkCard where
  path := resourcePath .networkInterface group name
  name
  configurations := addresses.zipIdx.map fun p =>
    { name := "ipconfig" ++ toString (p.2 + 1)
      publicAddress := some ⟨resourcePath .publicAddress group p.1⟩ }

/-- Adds a network card and the public addresses on it. -/
def addNetworkCard (c : Cloud) (group name : String) (addresses : List String) : Cloud :=
  let c := addresses.foldl (fun c address => c.addPublicAddress group address) c
  let c := c.addResource .networkInterface group name
  { c with cards := c.cards.insert (group, name) (cardRecord group name addresses) }

/-- Adds a storage account with keys and a container for disks. -/
def addStorageAccount (c : Cloud) (group name : String) : Cloud :=
  let c := c.addResource .storageAccount group name
  { c with
    keys := c.keys.insert (group, name) ⟨name ++ "-key1", name ++ "-key2"⟩
    containers := addOnce (name, "vhds") c.containers }

/-- The record of a machine with these network cards, and its disk in the account if there is one. -/
def machineRecord (group name : String) (cards : List String) (account : Option String) :
    Machine where
  path := resourcePath .virtualMachine group name
  name
  location := String.ofList (Text.lastSegment '-' group.toList)
  storage := ⟨some {
    name := some (name ++ "osdisk")
    blobUri := account.map fun account =>
      "https://" ++ account ++ "." ++ Defaults.blobSuffix ++ "/vhds/" ++ name ++ "osdisk.vhd" }⟩
  networkInterfaces := cards.map fun card => ⟨resourcePath .networkInterface group card⟩
  provisioningState := some "Succeeded"

/-- Adds a machine with its network cards and their public addresses, and its storage account. -/
def addMachine (c : Cloud) (group name : String) (cards : List (String × List String))
    (account : Option String) : Cloud :=
  let c := cards.foldl (fun c card => c.addNetworkCard group card.1 card.2) c
  let c := match account with
    | some account => c.addStorageAccount group account
    | none => c
  let c := c.addResource .virtualMachine group name
  { c with
    machines := c.machines.insert (group, name)
      (machineRecord group name (cards.map Prod.fst) account) }

def addCustomImage (c : Cloud) (account : String) : Cloud :=
  { c with imageAccounts := addOnce account c.imageAccounts }

def setPaceOf (c : Cloud) (kind : ResourceKind) (name : String) (pace : Pace) : Cloud :=
  { c with paces := c.paces.insert (kind, name) pace }

/-! ### Looking -/

def contains (c : Cloud) (kind : ResourceKind) (group name : String) : Bool :=
  (kind, group, name) ∈ c.resources

def hasGroup (c : Cloud) (group : String) : Bool := group ∈ c.groups

def hasContainer (c : Cloud) (account container : String) : Bool :=
  (account, container) ∈ c.containers

/-- The names of the group's resources of the kind, in order. -/
def names (c : Cloud) (kind : ResourceKind) (group : String) : List String :=
  ((c.resources.filter fun r => r.1 = kind ∧ r.2.1 = group).map fun r => r.2.2).mergeSort
    fun a b => !(b < a)

def closedCount (c : Cloud) : Nat := c.closedStores.length

/-- The stores that were opened and not closed. -/
def openCount (c : Cloud) : Nat := c.openedStores - c.closedCount

/-- The kind and the name of each resource whose deletion was asked for. -/
def deletions (c : Cloud) : List (ResourceKind × String) :=
  c.log.filterMap fun
    | .plane (.delete kind _ name) => some (kind, name)
    | _ => none

/-! ### Calls -/

/-- The cloud after a deletion was carried out. With a group only the group itself goes. -/
def remove (c : Cloud) : Target → Cloud
  | .group group => { c with groups := without group c.groups }
  | .resource kind group name =>
    let c := { c with resources := without (kind, group, name) c.resources }
    match kind with
    | .virtualMachine => { c with machines := c.machines.erase (group, name) }
    | .networkInterface => { c with cards := c.cards.erase (group, name) }
    | .storageAccount => { c with keys := c.keys.erase (group, name) }
    | .publicAddress => c

def operationUri (n : Nat) : String := "https://fake.invalid/operations/" ++ toString n

/-- Starts an operation that settles as told. -/
def enqueue (c : Cloud) (target : Target) (pollsLeft : Option Nat) (result : OperationStatus) :
    Deletion × Cloud :=
  let n := c.operationCount + 1
  (.pending (operationUri n), { c with
    operationCount := n
    operations := c.operations.insert (operationUri n) ⟨target, pollsLeft, result⟩ })

/-- Starts a deletion at this pace. -/
def start (c : Cloud) (target : Target) : Pace → Deletion × Cloud
  | .immediate => (.deleted, c.remove target)
  | .afterPolls polls result => c.enqueue target (some polls) result
  | .never => c.enqueue target none .inProgress

def delete (c : Cloud) (kind : ResourceKind) (group name : String) : Deletion × Cloud :=
  if c.contains kind group name then
    c.start (.resource kind group name) ((c.paces.get? (kind, name)).getD c.pace)
  else (.alreadyAbsent, c)

def deleteGroup (c : Cloud) (group : String) : Deletion × Cloud :=
  if c.hasGroup group then c.start (.group group) c.groupPace else (.alreadyAbsent, c)

/-- One look at an operation. An operation that has settled carries its deletion out. -/
def poll (c : Cloud) (uri : String) : Except Failure OperationStatus × Cloud :=
  match c.operations.get? uri with
  | none => (.error (.of (.service (.notFound "operation" uri))), c)
  | some op =>
    match op.pollsLeft with
    | none => (.ok .inProgress, c)
    | some (n + 1) =>
      (.ok .inProgress,
        { c with operations := c.operations.insert uri { op with pollsLeft := some n } })
    | some 0 => (.ok op.result, if op.result = .succeeded then c.remove op.target else c)

def getKeys (c : Cloud) (group account : String) : Except Failure (Option StorageKeys) :=
  if c.keysDenied then
    .error (.of (.service (.unauthorized (some "AuthorizationFailed")
      ("listKeys denied on " ++ account))))
  else .ok (c.keys.get? (group, account))

/-- The failure of an operation on blobs while the blob service is down. -/
def blobFailure (operation account : String) : Failure :=
  .of (.plain ("blob service unavailable: " ++ operation ++ " on " ++ account))

/-- The answer to a call to the control plane. -/
def answerPlane (c : Cloud) :
    (call : ControlPlane.Call) → Except Failure (ControlPlane.Result call) × Cloud
  | .getMachine group name => (.ok (c.machines.get? (group, name)), c)
  | .getNetworkCard group name => (.ok (c.cards.get? (group, name)), c)
  | .getStorageKeys group account => (c.getKeys group account, c)
  | .list kind group => (.ok (c.names kind group), c)
  | .delete kind group name =>
    let (deletion, c) := c.delete kind group name
    (.ok deletion, c)
  | .deleteGroup group =>
    let (deletion, c) := c.deleteGroup group
    (.ok deletion, c)
  | .operationStatus uri => c.poll uri

/-- The answer to a call to the blob service. A store may be closed again, and counts once. -/
def answerBlob (c : Cloud) : (call : Blob.Call StoreHandle) → Blob.Answer StoreHandle call × Cloud
  | .openStore account _ =>
    (.ok ⟨c.openedStores, account⟩, { c with openedStores := c.openedStores + 1 })
  | .deleteContainer store container =>
    if c.blobsDown then (.error (blobFailure "delete container" store.account), c)
    else (.ok (c.hasContainer store.account container),
      { c with containers := without (store.account, container) c.containers })
  | .customImageExists store =>
    if c.blobsDown then (.error (blobFailure "list custom images" store.account), c)
    else (.ok (store.account ∈ c.imageAccounts), c)
  | .close store => ((), { c with closedStores := addOnce store.serial c.closedStores })

/-- The cloud with a call at the end of its log. -/
def record (c : Cloud) (call : Teardown.Call StoreHandle) : Cloud :=
  { c with log := c.log ++ [call.mapStore StoreHandle.account] }

/-- The answer to a call, and the cloud afterwards. -/
def answer (c : Cloud) :
    (call : Teardown.Call StoreHandle) → Teardown.Answer StoreHandle call × Cloud
  | .plane call => (c.record (.plane call)).answerPlane call
  | .blob call => (c.record (.blob call)).answerBlob call

/-- Calls take no time. -/
def server : Server (Teardown.Service StoreHandle) Cloud where
  serve _ call c :=
    let (answer, c) := c.answer call
    ((0, answer), c)
  draw := Server.noDraw

end Cloud

end Decommission.Simulation
