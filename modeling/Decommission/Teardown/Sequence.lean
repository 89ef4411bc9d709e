import Decommission.Teardown.Error
import Decommission.Teardown.Service

/-!
The ordered removal of a virtual machine and of what it owns: the machine, then each of its network
cards with the public addresses that it carried, then its disk storage, and at last the resource group
if nothing is left in it. The first failure ends the sequence; what is already gone counts as deleted.
-/
namespace Decommission.Teardown

/-- The resource group of a region. -/
def groupName (start region : String) : String := start ++ "-" ++ region

/-- A task over a control plane and a blob service, which may fail. -/
abbrev Action (σ α : Type) : Type := ExceptT Error (Program (Timed (Service σ))) α

namespace Action

variable {σ α : Type}

/-- A call to the control plane; `explain` turns its failure into an error. -/
def plane (explain : Failure → Error) (call : ControlPlane.Call) :
    Action σ (ControlPlane.Result call) :=
  ExceptT.mk <| (Task.act (I := Service σ) (.plane call)).bind fun answer =>
    .done (Except.mapError explain answer)

/-- A call to the control plane whose result is `none` if the resource is not found. -/
def planeIfFound (explain : Failure → Error) (call : ControlPlane.Call) :
    Action σ (Option (ControlPlane.Result call)) :=
  ExceptT.mk <| (Task.act (I := Service σ) (.plane call)).bind fun answer =>
    .done (Except.mapError explain (ignoreNotFound answer))

def openStore (account key : String) : Action σ σ :=
  ExceptT.mk <| (Task.act (I := Service σ) (.blob (.openStore account key))).bind fun answer =>
    .done (Except.mapError (Error.storage account .openingStore) answer)

def deleteContainer (account : String) (store : σ) (container : String) : Action σ Bool :=
  ExceptT.mk <| (Task.act (I := Service σ) (.blob (.deleteContainer store container))).bind
    fun answer => .done (Except.mapError (Error.storage account .deletingContainer) answer)

def customImageExists (account : String) (store : σ) : Action σ Bool :=
  ExceptT.mk <| (Task.act (I := Service σ) (.blob (.customImageExists store))).bind
    fun answer => .done (Except.mapError (Error.storage account .checkingImages) answer)

/-- The action, and then the closing of the store, however the action ended. -/
def closingAfter (store : σ) (action : Action σ α) : Action σ α :=
  ExceptT.mk <| action.run.bind fun result =>
    (Task.act (I := Service σ) (.blob (.close store))).bind fun _ => .done result

end Action

variable {σ : Type}

/-- One look at a pending operation; it has settled when its state is terminal. -/
def checkOperation (operation : String) :
    Task (Service σ) (Except Failure (Option OperationStatus)) :=
  (Task.act (I := Service σ) (.plane (.operationStatus operation))).bind fun
    | .error f => .done (.error f)
    | .ok status => .done (.ok (if status.isTerminal then some status else none))

/-- Waits for a deletion to settle, and tells whether it succeeded. -/
def settle (wait : WaitSettings) (resource : String) : Deletion → Action σ Bool
  | .alreadyAbsent => pure true
  | .deleted => pure true
  | .pending operation =>
    ExceptT.mk <| (waitFor wait resource (checkOperation operation)).bind fun
      | .error e => .done (.error (.ofWait e))
      | .ok status => .done (.ok (status == .succeeded))

/-- Asks for a deletion, and does not wait for it. -/
def requestDelete (kind : ResourceKind) (group name : String) : Action σ Deletion := do
  let answer ← Action.planeIfFound (.call (.deleting kind name)) (.delete kind group name)
  return answer.getD .alreadyAbsent

/-- Asks for a deletion, waits for it, and tells whether it succeeded. -/
def deleteAndSettle (wait : WaitSettings) (kind : ResourceKind) (group name : String) :
    Action σ Bool := do
  settle wait (resourceText kind name) (← requestDelete kind group name)

/-- Asks for the deletion of public addresses, one after the other. -/
def deleteAddresses (group : String) : List String → Action σ Unit
  | [] => pure ()
  | name :: rest => do
    let _ ← requestDelete .publicAddress group name
    deleteAddresses group rest

/-- Deletes the network cards that exist, each with its public addresses after it. -/
def deleteNetworkCards (wait : WaitSettings) (group : String) : List Reference → Action σ Unit
  | [] => pure ()
  | reference :: rest => do
    let name := reference.name
    match ← Action.plane (.call (.fetchingNetworkCard name)) (.getNetworkCard group name) with
    | none => deleteNetworkCards wait group rest
    | some card =>
      if ← deleteAndSettle wait .networkInterface group name then
        deleteAddresses group card.publicAddressNames
        deleteNetworkCards wait group rest
      else throw (.deletionFailed (resourceText .networkInterface name))

/-- Deletes the disks in an open store, and the account too if it holds no captured images. -/
def cleanAccount (container group account : String) (store : σ) : Action σ Unit := do
  let _ ← Action.deleteContainer account store container
  if ← Action.customImageExists account store then return ()
  let _ ← requestDelete .storageAccount group account

/-- Deletes what the machine's disk was stored in; nothing is done where no account, or no keys of it,
are found. -/
def deleteStorage (container group : String) (machine : Machine) : Action σ Unit :=
  match machine.storage.account? with
  | none => pure ()
  | some account => do
    let answer ← Action.planeIfFound (.storage account .listingKeys) (.getStorageKeys group account)
    match answer.join with
    | none => pure ()
    | some keys =>
      let store ← Action.openStore account keys.key1
      Action.closingAfter store (cleanAccount container group account store)

/-- Whether the group holds no resources of these kinds; it is not looked any further after the first
kind of which there are some. -/
def isEmptyOf (group : String) : List ResourceKind → Action σ Bool
  | [] => pure true
  | kind :: rest => do
    let names ← Action.plane (.call (.listing kind group)) (.list kind group)
    if names.isEmpty then isEmptyOf group rest else pure false

/-- Deletes the group if it holds no tracked resources, and tells whether it was deleted. A resource
that is made between the last look and the deletion goes with the group. -/
def deleteGroupIfEmpty (wait : WaitSettings) (group : String) : Action σ Bool := do
  if ← isEmptyOf group ResourceKind.tracked then
    let answer ← Action.planeIfFound (.call (.deletingGroup group)) (.deleteGroup group)
    if ← settle wait (groupText group) (answer.getD .alreadyAbsent) then return true
    else throw (.deletionFailed (groupText group))
  else return false

/-- Removes the machine and what it owns. The result is `true` if the machine did not exist or was
deleted, and `false` if its deletion failed; the rest is removed in both cases. -/
def removeMachine (s : TeardownSettings) (id : MachineId) : Action σ Bool := do
  let group := groupName s.groupPrefix id.region
  match ← Action.plane (.call (.fetchingMachine id.name)) (.getMachine group id.name) with
  | none => return true
  | some machine =>
    let deleted ← deleteAndSettle s.wait .virtualMachine group machine.name
    deleteNetworkCards s.wait group machine.networkInterfaces
    deleteStorage s.diskContainer group machine
    let _ ← deleteGroupIfEmpty s.wait group
    return deleted

/-- Removes the machine whose id the text writes. -/
def remove (s : TeardownSettings) (id : String) : Action σ Bool :=
  match MachineId.decode id with
  | .error e => throw (.invalidId e)
  | .ok id => removeMachine s id

end Decommission.Teardown
