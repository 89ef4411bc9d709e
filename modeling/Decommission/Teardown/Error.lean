import Decommission.Failure
import Decommission.Resource.Kind
import Decommission.Resource.MachineId
import Decommission.Wait

/-! Why a teardown stopped before its end. -/
namespace Decommission.Teardown

/-- What a call to the control plane was for. -/
inductive Step where
  | fetchingMachine (name : String)
  | fetchingNetworkCard (name : String)
  | listing (kind : ResourceKind) (group : String)
  | deleting (kind : ResourceKind) (name : String)
  | deletingGroup (group : String)
  | polling (resource : String)
  deriving DecidableEq, Repr

def Step.text : Step → String
  | .fetchingMachine name => "fetching virtual machine " ++ name
  | .fetchingNetworkCard name => "fetching network interface " ++ name
  | .listing kind group => "listing " ++ kind.label ++ " in " ++ group
  | .deleting kind name => "deleting " ++ kind.label ++ " " ++ name
  | .deletingGroup group => "deleting resource group " ++ group
  | .polling resource => "polling deletion of " ++ resource

/-- What a storage account was used for. -/
inductive StorageStep where
  | listingKeys
  | openingStore
  | deletingContainer
  | checkingImages
  deriving DecidableEq, Repr

def StorageStep.text : StorageStep → String
  | .listingKeys => "listing keys"
  | .openingStore => "opening blob store"
  | .deletingContainer => "deleting disk container"
  | .checkingImages => "checking for custom images"

/-- What is waited for, in words. -/
def resourceText (kind : ResourceKind) (name : String) : String := kind.label ++ " " ++ name

def groupText (group : String) : String := "resource group " ++ group

inductive Error where
  | invalidId (error : IdError)
  | call (step : Step) (failure : Failure)
  | timedOut (resource : String) (timeout : Duration)
  | stopped (resource : String)
  /-- The control plane reported that a deletion failed. -/
  | deletionFailed (resource : String)
  | storage (account : String) (step : StorageStep) (failure : Failure)
  deriving DecidableEq, Repr

namespace Error

def message : Error → String
  | invalidId _ => "invalid resource id"
  | call step _ => step.text ++ " failed"
  | timedOut resource timeout =>
    "timed out after " ++ Duration.text timeout ++ " waiting for " ++ resource
  | stopped resource => "cancelled while waiting for " ++ resource
  | deletionFailed resource => "deletion of " ++ resource ++ " failed"
  | storage account step _ => "storage account " ++ account ++ ": " ++ step.text ++ " failed"

/-- All messages from the outermost inward. -/
def messages : Error → List String
  | e@(invalidId error) => [e.message, error.message]
  | e@(call _ failure) | e@(storage _ _ failure) => e.message :: failure.messages
  | e => [e.message]

/-- The failure of the call that stopped the teardown. -/
def failure? : Error → Option Failure
  | call _ failure | storage _ _ failure => some failure
  | _ => none

/-- The service error behind a failed call. -/
def service? (e : Error) : Option ServiceError := e.failure?.bind Failure.service?

def ofWait : WaitError → Error
  | .timeout resource timeout _ => .timedOut resource timeout
  | .stopped resource => .stopped resource
  | .check resource failure => .call (.polling resource) failure

end Error

end Decommission.Teardown
