import Decommission.Failure
import Decommission.Program
import Decommission.Resource.Deletion
import Decommission.Resource.Kind
import Decommission.Resource.Machine
import Decommission.Resource.NetworkCard
import Decommission.Resource.StorageKeys

/-! The calls of a control plane. -/
namespace Decommission.ControlPlane

inductive Call where
  | getMachine (group name : String)
  | getNetworkCard (group name : String)
  | getStorageKeys (group account : String)
  /-- Asks for the names of all resources of a kind. -/
  | list (kind : ResourceKind) (group : String)
  | delete (kind : ResourceKind) (group name : String)
  | deleteGroup (group : String)
  | operationStatus (operation : String)
  deriving DecidableEq, Repr

/-- What each call gives when it does not fail. What does not exist is `none`. -/
abbrev Result : Call → Type
  | .getMachine .. => Option Machine
  | .getNetworkCard .. => Option NetworkCard
  | .getStorageKeys .. => Option StorageKeys
  | .list .. => List String
  | .delete .. => Deletion
  | .deleteGroup .. => Deletion
  | .operationStatus .. => OperationStatus

/-- The interface of a control plane. -/
abbrev Service : Interface := ⟨Call, fun c => Except Failure (Result c)⟩

end Decommission.ControlPlane
