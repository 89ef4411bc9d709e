import Decommission.ControlPlane.Call
import Decommission.ControlPlane.Connection
import Decommission.Http.Message
import Decommission.Resource.Listing
import Decommission.Retry

/-!
The calls of a control plane carried out over HTTP. Requests that were throttled, met a failing
service or did not get through are sent again under the connection's retry policy.
-/
namespace Decommission.ControlPlane

open Http (Transport Request Reply Method)

/-- The operation's state that a body names; a body that names none means that it succeeded. -/
def statusOfName : Option String → OperationStatus
  | none => .succeeded
  | some name =>
    if name = "Succeeded" then .succeeded
    else if name = "Failed" ∨ name = "Canceled" then .failed
    else .inProgress

/-- The name of the state in the body of an operation. -/
def operationOfJson? (v : Json) : Option (Option String) := do
  (← Json.Record.of? ["status"] v).getIfNamed "status" (Json.nullable Json.text?)

def statusOfBody (body : String) : OperationStatus :=
  statusOfName ((Json.read? body).bind operationOfJson?).join

/-- The operation's state that a successful reply tells. -/
def statusOfReply (r : Reply) : OperationStatus :=
  if r.status = 202 then .inProgress
  else if r.status = 204 then .succeeded
  else statusOfBody (r.body.toOption.getD "")

/-- The operation's state that a failure tells: an operation that is gone has succeeded, and a refusal
means that it failed. Other failures tell nothing. -/
def statusOfFailure? (f : Failure) : Option OperationStatus :=
  match f.service? with
  | some (.notFound ..) => some .succeeded
  | some (.other ..) | some (.conflict ..) => some .failed
  | _ => none

/-- The headers that tell where an accepted deletion can be followed, the preferred one first. -/
def operationHeaders : List String := ["azure-asyncoperation", "location"]

/-- The address at which an accepted deletion can be followed. -/
def operation? (r : Reply) : Option String :=
  operationHeaders.findSome? fun name =>
    (r.header? name).bind fun uri => if uri = "" then none else some uri

def deletionOfReply (r : Reply) : Deletion :=
  if r.status = 204 then .alreadyAbsent
  else if r.status = 202 then
    match operation? r with
    | some uri => .pending uri
    | none => .deleted
  else .deleted

/-- The value of a reply's body; `context` tells what was to be read. -/
def decodeReply {α : Type} (layout : Json.Layout α) (context : String) (r : Reply) :
    Except Failure α :=
  match r.body with
  | .error fault => .error ((Failure.of (.transport fault)).inContext context)
  | .ok body =>
    match layout.read body with
    | .ok a => .ok a
    | .error fault => .error ((Failure.of (.document fault)).inContext context)

/-- A service error decides by its kind whether to try again, any other failure by whether it is
transient. -/
def isRetryable (f : Failure) : Bool :=
  match f.service? with
  | some error => error.isRetryable
  | none => f.isTransient

namespace Connection

/-- The request to `url`. Only a `POST` has a body, which is empty. -/
def request (c : Connection) (method : Method) (url : String) : Request where
  method
  url
  headers := [("authorization", "Bearer " ++ c.accessToken), ("user-agent", Http.userAgent)]
  body := if method = .post then some "" else none

/-- The reply, if it is a success; every other one is a service error. -/
def judge (method : Method) (url : String) : Except TransportFault Reply → Except Failure Reply
  | .error fault =>
    .error ((Failure.of (.transport fault)).inContext (method.label ++ " " ++ url ++ " failed"))
  | .ok reply =>
    if reply.isSuccess then .ok reply
    else
      let error := ServiceError.ofResponse reply.status (reply.body.toOption.getD "")
      .error ((Failure.of (.service error)).inContext
        (method.label ++ " " ++ url ++ " returned " ++ Http.statusText reply.status))

def sendOnce (c : Connection) (method : Method) (url : String) :
    Task Transport (Except Failure Reply) :=
  (Task.act (I := Transport) (.send (c.request method url) c.requestTimeout)).bind fun answer =>
    .done (judge method url answer)

def send (c : Connection) (method : Method) (url : String) :
    Task Transport (Except Failure Reply) :=
  c.retry.run isRetryable (c.sendOnce method url)

/-- Sends a request and reads its reply with `read`; the value is `none` if the service does not find
what the request is about. -/
def fetch {α : Type} (c : Connection) (method : Method) (url : String)
    (read : Reply → Except Failure α) : Task Transport (Except Failure (Option α)) :=
  (c.send method url).bind fun answer => .done <|
    match ignoreNotFound answer with
    | .error f => .error f
    | .ok none => .ok none
    | .ok (some reply) => (read reply).map some

/-- The value of the document at `url`. -/
def get {α : Type} (c : Connection) (url : String) (layout : Json.Layout α) :
    Task Transport (Except Failure (Option α)) :=
  c.fetch .get url (decodeReply layout ("Failed to decode response from " ++ url))

def getMachine (c : Connection) (group name : String) :
    Task Transport (Except Failure (Option Machine)) :=
  c.get (c.root.resourceUrl .virtualMachine group name) Machine.layout

def getNetworkCard (c : Connection) (group name : String) :
    Task Transport (Except Failure (Option NetworkCard)) :=
  c.get (c.root.resourceUrl .networkInterface group name) NetworkCard.layout

def getStorageKeys (c : Connection) (group account : String) :
    Task Transport (Except Failure (Option StorageKeys)) :=
  c.fetch .post (c.root.keysUrl group account)
    (decodeReply StorageKeys.layout ("Failed to decode keys of storage account " ++ account))

/-- The names on the page at `url` and on the pages after it, at most `limit` pages. A page that does
not exist ends the listing. -/
def listFrom (c : Connection) : Nat → String → Task Transport (Except Failure (List String))
  | 0, _ => .stalled
  | limit + 1, url => (c.get url ListingPage.layout).bind fun
    | .error f => .done (.error f)
    | .ok none => .done (.ok [])
    | .ok (some ⟨names, none⟩) => .done (.ok names)
    | .ok (some ⟨names, some next⟩) => (listFrom c limit next).bind fun rest =>
      .done (rest.map fun more => names ++ more)

def list (c : Connection) (kind : ResourceKind) (group : String) :
    Task Transport (Except Failure (List String)) :=
  c.listFrom c.pageLimit (c.root.collectionUrl kind group)

def deleteAt (c : Connection) (url : String) : Task Transport (Except Failure Deletion) :=
  (c.fetch .delete url fun reply => .ok (deletionOfReply reply)).bind fun answer =>
    .done (answer.map fun deletion => deletion.getD .alreadyAbsent)

def delete (c : Connection) (kind : ResourceKind) (group name : String) :
    Task Transport (Except Failure Deletion) :=
  c.deleteAt (c.root.resourceUrl kind group name)

def deleteGroup (c : Connection) (group : String) : Task Transport (Except Failure Deletion) :=
  c.deleteAt (c.root.groupUrl group)

def operationStatus (c : Connection) (operation : String) :
    Task Transport (Except Failure OperationStatus) :=
  (c.send .get operation).bind fun
    | .ok reply => .done (.ok (statusOfReply reply))
    | .error f => .done <|
      match statusOfFailure? f with
      | some status => .ok status
      | none => .error f

/-- Each call of a control plane over this connection. -/
def carryOut (c : Connection) : (call : Call) → Task Transport (Except Failure (Result call))
  | .getMachine group name => c.getMachine group name
  | .getNetworkCard group name => c.getNetworkCard group name
  | .getStorageKeys group account => c.getStorageKeys group account
  | .list kind group => c.list kind group
  | .delete kind group name => c.delete kind group name
  | .deleteGroup group => c.deleteGroup group
  | .operationStatus operation => c.operationStatus operation

end Connection

end Decommission.ControlPlane
