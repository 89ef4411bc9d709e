import Decommission.ControlPlane.Error
import Decommission.Encoding.Base64
import Decommission.Json.Fault

/-! What makes a call fail: a cause, and what was attempted around it. -/
namespace Decommission

/-- Why a request was not answered. -/
inductive TransportFault where
  | timeout
  | connect
  | builder
  | body
  | decode
  | unscripted
  | other
  deriving DecidableEq, Repr

namespace TransportFault

def label : TransportFault → String
  | timeout => "timeout"
  | connect => "connect"
  | builder => "builder"
  | body => "body"
  | decode => "decode"
  | unscripted => "unscripted"
  | other => "other"

/-- The same request may get through later. -/
def isTransient : TransportFault → Bool
  | timeout | connect => true
  | _ => false

end TransportFault

inductive Cause where
  | service (error : ServiceError)
  | transport (fault : TransportFault)
  /-- A reply is no document of the expected form; its first fault, if one is found. -/
  | document (fault : Option Json.Fault)
  | blobStatus (method path : String) (status : Nat) (code : String)
  | blobClosed (account : String)
  | invalidKey (error : Base64.Error)
  | plain (text : String)
  deriving DecidableEq, Repr

namespace Cause

def message : Cause → String
  | service error => error.message
  | transport fault => "transport: " ++ fault.label
  | document _ => "transport: " ++ TransportFault.decode.label
  | blobStatus method path status code =>
    "blob service returned " ++ toString status ++ " (" ++ code ++ ") for " ++ method ++ " " ++ path
  | blobClosed account => "blob store for account " ++ account ++ " is closed"
  | invalidKey _ => "storage account key is not valid base64"
  | plain text => text

/-- What the text that could not be read says of itself. -/
def detail? : Cause → Option String
  | document fault => fault.map Json.Fault.message
  | invalidKey error => some error.message
  | _ => none

end Cause

/-- A cause, and the contexts around it from the outermost inward. -/
structure Failure where
  contexts : List String
  cause : Cause
  deriving DecidableEq, Repr

namespace Failure

def of (cause : Cause) : Failure := ⟨[], cause⟩

/-- The failure with one more context around it. -/
def inContext (f : Failure) (context : String) : Failure := ⟨context :: f.contexts, f.cause⟩

/-- All messages from the outermost inward. -/
def messages (f : Failure) : List String := f.contexts ++ [f.cause.message]

/-- The outermost message. -/
def message (f : Failure) : String := f.contexts.headD f.cause.message

def service? (f : Failure) : Option ServiceError :=
  match f.cause with
  | .service error => some error
  | _ => none

def isNotFound (f : Failure) : Bool := f.service?.any ServiceError.isNotFound

/-- A connection that failed or timed out. -/
def isTransient (f : Failure) : Bool :=
  match f.cause with
  | .transport fault => fault.isTransient
  | _ => false

def suggestion? (f : Failure) : Option String := f.service?.bind ServiceError.suggestion?

end Failure

/-- An absent resource is no failure: it is `none`, and every other failure stays. -/
def ignoreNotFound {α : Type} : Except Failure α → Except Failure (Option α)
  | .ok a => .ok (some a)
  | .error f => if f.isNotFound then .ok none else .error f

end Decommission
