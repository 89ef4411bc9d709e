import Decommission.Json.Reader
import Decommission.Json.Record
import Decommission.Text.Blank

/-! The errors that the control plane answers with, sorted by what can be done about them. -/
namespace Decommission

inductive ServiceError where
  /-- The resource does not exist. -/
  | notFound (kind id : String)
  /-- Too many requests were sent. -/
  | throttled
  /-- The resource is in use, or another operation runs on it. -/
  | conflict (code : Option String) (message : String)
  /-- Credentials are missing, expired or not sufficient. -/
  | unauthorized (code : Option String) (message : String)
  /-- The service failed. -/
  | unavailable (status : Nat) (message : String)
  | other (status : Nat) (code : Option String) (message : String)
  deriving DecidableEq, Repr

namespace ServiceError

def message : ServiceError → String
  | notFound kind id => "Resource not found: " ++ kind ++ " '" ++ id ++ "'"
  | throttled => "Rate limit exceeded"
  | conflict _ text => "Conflict: " ++ text
  | unauthorized _ text => "Unauthorized: " ++ text
  | unavailable status text => "ARM service error (" ++ toString status ++ "): " ++ text
  | other status _ text => "ARM error (" ++ toString status ++ "): " ++ text

def isNotFound : ServiceError → Bool
  | notFound .. => true
  | _ => false

/-- The same request may succeed later. -/
def isRetryable : ServiceError → Bool
  | throttled | unavailable .. | conflict .. => true
  | _ => false

def notFoundCodes : List String :=
  ["ResourceNotFound", "ResourceGroupNotFound", "NotFound", "ParentResourceNotFound",
    "StorageAccountNotFound", "ContainerNotFound"]

def throttlingCodes : List String := ["TooManyRequests", "SubscriptionRequestsThrottled"]

def credentialCodes : List String :=
  ["AuthenticationFailed", "AuthorizationFailed", "ExpiredAuthenticationToken",
    "InvalidAuthenticationToken"]

def conflictCodes : List String :=
  ["Conflict", "AnotherOperationInProgress", "OperationNotAllowed",
    "InUseNetworkInterfaceCannotBeDeleted", "PublicIPAddressInUse"]

/-- The error of an answer with this status, error code and message. A known code decides before
the status does, and of two reasons the first in the order of this definition. -/
def classify (status : Nat) (code message : Option String) : ServiceError :=
  let text := message.getD "Unknown error"
  let among (codes : List String) : Bool := code.any fun c => codes.contains c
  if among notFoundCodes || (status == 404 && code.isNone) then .notFound "resource" text
  else if among throttlingCodes || status == 429 then .throttled
  else if among credentialCodes || status == 401 || status == 403 then .unauthorized code text
  else if among conflictCodes || status == 409 then .conflict code text
  else if 500 ≤ status ∧ status ≤ 599 then .unavailable status text
  else .other status code text

/-- The code and the message in the body of an error. -/
def bodyOfJson? (v : Json) : Option (Option String × Option String) := do
  let r ← Json.Record.of? ["code", "message"] v
  some (← r.getIfNamed "code" (Json.nullable Json.text?),
    ← r.getIfNamed "message" (Json.nullable Json.text?))

def envelopeOfJson? (v : Json) : Option (Option String × Option String) := do
  (← Json.Record.of? ["error"] v).require "error" bodyOfJson?

/-- The error of an answer with this status and body. A body that is no error document is the
message, without the blanks around it. -/
def ofResponse (status : Nat) (body : String) : ServiceError :=
  match (Json.read? body).bind envelopeOfJson? with
  | some (code, message) => classify status code message
  | none =>
    let text := Text.trim body
    classify status none (if text = "" then none else some text)

/-- What a user can do about an error with this code. -/
def suggestions : List (String × String) := [
  ("ExpiredAuthenticationToken",
    "Refresh the token, e.g. `az account get-access-token --query accessToken -o tsv`."),
  ("InvalidAuthenticationToken",
    "Check AZURE_ACCESS_TOKEN holds an ARM token for https://management.azure.com/."),
  ("AuthenticationFailed",
    "Check AZURE_ACCESS_TOKEN holds an ARM token for https://management.azure.com/."),
  ("AuthorizationFailed", "The principal needs Contributor rights on the resource group."),
  ("Unauthorized", "Check AZURE_ACCESS_TOKEN and AZURE_SUBSCRIPTION_ID."),
  ("TooManyRequests",
    "ARM rate limit hit. The request was retried automatically; try again later."),
  ("AnotherOperationInProgress",
    "Another operation is running on this resource; retry once it completes.")]

def suggestion? : ServiceError → Option String
  | unauthorized code _ => suggestions.lookup (code.getD "Unauthorized")
  | throttled => suggestions.lookup "TooManyRequests"
  | conflict code _ | other _ code _ => code.bind fun c => suggestions.lookup c
  | _ => none

end ServiceError

end Decommission
